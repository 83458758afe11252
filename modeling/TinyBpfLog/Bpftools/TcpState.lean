import TinyBpfLog.Bpftools.Kernel

/-!
# TCP state changes

The program of `tcpstate.bpf.c`.  `timestamps` keeps, for each socket, the time
of its latest state change until it is closed; changes of other protocols and
address families are not looked at.
-/

namespace TinyBpfLog.Bpftools.TcpState

open Foundation

def afInet : UInt16 := 2
def ipprotoTcp : UInt16 := 6
def tcpClose : Int32 := 7

/-- The constants that user space could set before the program is loaded. -/
structure RoData where
  filterBySport : Bool
  filterByDport : Bool
  targetFamily : Int16

/-- The values in the object file, which `start_tcpstate_monitor` leaves alone. -/
def RoData.loaded : RoData := ⟨false, false, 2⟩

structure TcpstateEvent where
  saddr : BitVec 128
  daddr : BitVec 128
  skaddr : UInt64
  tsUs : UInt64
  deltaUs : UInt64
  pid : UInt32
  oldstate : Int32
  newstate : Int32
  family : UInt16
  sport : UInt16
  dport : UInt16
  task : CharArray taskCommLen

structure Context where
  skaddr : UInt64
  oldstate : Int32
  newstate : Int32
  sport : UInt16
  dport : UInt16
  family : UInt16
  protocol : UInt16

structure Task where
  pidTgid : UInt64
  ktime : UInt64
  comm : Option Bytes
  kernel : KernelMemory

structure Maps (capacity : Nat) where
  sports : BoundedMap UInt16 UInt16 capacity
  dports : BoundedMap UInt16 UInt16 capacity
  timestamps : BoundedMap UInt64 UInt64 capacity

variable {capacity : Nat}

def Maps.empty : Maps capacity := ⟨.empty, .empty, .empty⟩

/-! ## Where a socket has its addresses -/

def skcDaddr : UInt64 := 0
def skcRcvSaddr : UInt64 := 4
def skcV6Daddr : UInt64 := 56
def skcV6RcvSaddr : UInt64 := 72

/-- `bpf_probe_read_kernel` into an `unsigned __int128`, for either family. -/
def readAddr (kernel : KernelMemory) (address : UInt64) : BitVec 128 :=
  littleEndian 16 (probeReadKernel kernel 16 address)

/-- The fields of `event`, which starts as `{}`. -/
def fillEvent (task : Task) (ctx : Context) (deltaUs : UInt64) :
    TcpstateEvent where
  skaddr := ctx.skaddr
  tsUs := task.ktime / 1000
  deltaUs := deltaUs
  pid := pidOf task.pidTgid
  oldstate := ctx.oldstate
  newstate := ctx.newstate
  family := ctx.family
  sport := ctx.sport
  dport := ctx.dport
  task := (CharArray.zeroed taskCommLen).readStr task.comm
  saddr :=
    if ctx.family = afInet then readAddr task.kernel (ctx.skaddr + skcRcvSaddr)
    else readAddr task.kernel (ctx.skaddr + skcV6RcvSaddr)
  daddr :=
    if ctx.family = afInet then readAddr task.kernel (ctx.skaddr + skcDaddr)
    else readAddr task.kernel (ctx.skaddr + skcV6Daddr)

def handleSetState (rodata : RoData) (task : Task) (ctx : Context)
    (maps : Maps capacity) : Option TcpstateEvent × Maps capacity :=
  let sk := ctx.skaddr
  let family := ctx.family
  let sport := ctx.sport
  let dport := ctx.dport
  if ctx.protocol ≠ ipprotoTcp then (none, maps)
  else if rodata.targetFamily ≠ 0 ∧
      rodata.targetFamily.toInt ≠ (family.toNat : Int) then (none, maps)
  else if rodata.filterBySport ∧ maps.sports.lookup sport = none then
    (none, maps)
  else if rodata.filterByDport ∧ maps.dports.lookup dport = none then
    (none, maps)
  else
    let ts := task.ktime
    let deltaUs :=
      match maps.timestamps.lookup sk with
      | none => 0
      | some tsp => (ts - tsp) / 1000
    (some (fillEvent task ctx deltaUs),
      { maps with timestamps :=
          if ctx.newstate = tcpClose then maps.timestamps.delete sk
          else maps.timestamps.update sk ts })

/-! ## Sequences of state changes -/

structure StateChange where
  task : Task
  ctx : Context

namespace StateChange

def ktime (change : StateChange) : UInt64 := change.task.ktime

/-- It is a change of a TCP socket of the family that is looked at. -/
def Accepted (targetFamily : Int16) (change : StateChange) : Prop :=
  change.ctx.protocol = ipprotoTcp ∧
    (targetFamily ≠ 0 → targetFamily.toInt = (change.ctx.family.toNat : Int))

instance (targetFamily : Int16) (change : StateChange) :
    Decidable (change.Accepted targetFamily) := by
  unfold Accepted
  infer_instance

end StateChange

def handle (rodata : RoData) (change : StateChange) :
    Maps capacity → Option TcpstateEvent × Maps capacity :=
  handleSetState rodata change.task change.ctx

/-- The maps after the changes of `past`, oldest first. -/
def mapsAfter (capacity : Nat) (rodata : RoData) (past : List StateChange) :
    Maps capacity :=
  past.foldl (fun maps change => (handle rodata change maps).2) .empty

/--
`prev`, which comes after `earlier`, is the latest accepted change of `sk`.
-/
def Preceding (targetFamily : Int16) (past : List StateChange) (sk : UInt64)
    (earlier : List StateChange) (prev : StateChange) : Prop :=
  ∃ later, past = earlier ++ prev :: later ∧ prev.Accepted targetFamily ∧
    prev.ctx.skaddr = sk ∧
    ∀ change ∈ later, change.Accepted targetFamily → change.ctx.skaddr ≠ sk

/-- `deltaUs` is the time from `prev` to `change`, in whole microseconds. -/
def Elapsed (prev change : StateChange) (deltaUs : UInt64) : Prop :=
  prev.ktime ≤ change.ktime ∧
    deltaUs.toNat = (change.ktime.toNat - prev.ktime.toNat) / 1000

def touch (targetFamily : Int16) (change : StateChange) :
    BoundedMap.Touch UInt64 UInt64 :=
  if change.Accepted targetFamily then
    if change.ctx.newstate = tcpClose then .delete change.ctx.skaddr
    else .update change.ctx.skaddr change.ktime
  else .nothing

section Touch

variable {targetFamily : Int16} {change : StateChange} {sk : UInt64}

theorem touch_on_iff :
    (touch targetFamily change).On sk ↔
      change.Accepted targetFamily ∧ change.ctx.skaddr = sk := by
  unfold touch
  split
  · next haccepted =>
      split <;> simp [BoundedMap.Touch.On, haccepted]
  · next hignored => simp [BoundedMap.Touch.On, hignored]

theorem change_of_touch {ts : UInt64}
    (h : touch targetFamily change = .update sk ts) :
    change.Accepted targetFamily ∧ change.ctx.skaddr = sk ∧
      change.ctx.newstate ≠ tcpClose ∧ change.ktime = ts := by
  unfold touch at h
  split at h
  · next haccepted =>
      split at h
      · cases h
      · next hopen =>
          cases h
          exact ⟨haccepted, rfl, hopen, rfl⟩
  · cases h

end Touch

section HandleSetState

variable {targetFamily : Int16} {change : StateChange} {maps : Maps capacity}

theorem handle_ignored (h : ¬ change.Accepted targetFamily) :
    handle ⟨false, false, targetFamily⟩ change maps = (none, maps) := by
  unfold handle handleSetState
  by_cases hprotocol : change.ctx.protocol = ipprotoTcp
  · rw [if_neg (not_not_intro hprotocol), if_pos]
    simpa [StateChange.Accepted, hprotocol] using h
  · rw [if_pos hprotocol]

/-- An accepted change is output, with the time since the stored one. -/
theorem handle_accepted (h : change.Accepted targetFamily) :
    handle ⟨false, false, targetFamily⟩ change maps =
      (some (fillEvent change.task change.ctx
          (match maps.timestamps.lookup change.ctx.skaddr with
          | none => 0
          | some tsp => (change.ktime - tsp) / 1000)),
        { maps with timestamps :=
            (touch targetFamily change).apply maps.timestamps }) := by
  have hpasses : ¬ (targetFamily ≠ 0 ∧
      targetFamily.toInt ≠ (change.ctx.family.toNat : Int)) := fun hne =>
    hne.2 (h.2 hne.1)
  unfold handle handleSetState
  rw [if_neg (not_not_intro h.1), if_neg hpasses, if_neg (by simp),
    if_neg (by simp), touch, if_pos h]
  by_cases hclose : change.ctx.newstate = tcpClose
  · simp only [hclose, if_true]
    rfl
  · simp only [hclose, if_false]
    rfl

theorem handle_touch (targetFamily : Int16) (change : StateChange)
    (maps : Maps capacity) :
    (handle ⟨false, false, targetFamily⟩ change maps).2.timestamps =
      (touch targetFamily change).apply maps.timestamps := by
  by_cases haccepted : change.Accepted targetFamily
  · rw [handle_accepted haccepted]
  · rw [handle_ignored haccepted, touch, if_neg haccepted]
    rfl

end HandleSetState

theorem timestamps_eq_replay (targetFamily : Int16) (past : List StateChange) :
    (mapsAfter capacity ⟨false, false, targetFamily⟩ past).timestamps =
      BoundedMap.replay (touch targetFamily) past :=
  @BoundedMap.foldl_eq_replay _ _ _ capacity _ _ (touch targetFamily)
    (fun maps change => (handle ⟨false, false, targetFamily⟩ change maps).2)
    Maps.timestamps .empty rfl
    (fun maps change => handle_touch targetFamily change maps) past

theorem preceding_of_lookup {targetFamily : Int16} {past : List StateChange}
    {sk ts : UInt64}
    (h : (mapsAfter capacity ⟨false, false, targetFamily⟩ past).timestamps.lookup
      sk = some ts) :
    ∃ earlier prev, Preceding targetFamily past sk earlier prev ∧
      prev.ctx.newstate ≠ tcpClose ∧ prev.ktime = ts := by
  rw [timestamps_eq_replay] at h
  obtain ⟨earlier, prev, later, rfl, htouch, hlater⟩ := BoundedMap.last_write h
  obtain ⟨haccepted, hsk, hopen, hktime⟩ := change_of_touch htouch
  refine ⟨earlier, prev, ⟨later, rfl, haccepted, hsk, ?_⟩, hopen, hktime⟩
  intro change hmem haccepted' hsk'
  exact hlater change hmem (touch_on_iff.mpr ⟨haccepted', hsk'⟩)

/-- An update that was stored is still there at the next change of the socket. -/
theorem lookup_of_preceding {targetFamily : Int16} {past : List StateChange}
    {sk : UInt64} {earlier : List StateChange} {prev : StateChange}
    (h : Preceding targetFamily past sk earlier prev) :
    (mapsAfter capacity ⟨false, false, targetFamily⟩ past).timestamps.lookup sk =
      (mapsAfter capacity ⟨false, false, targetFamily⟩
        (earlier ++ [prev])).timestamps.lookup sk := by
  obtain ⟨later, rfl, -, -, hlater⟩ := h
  rw [timestamps_eq_replay, timestamps_eq_replay, List.append_cons]
  refine BoundedMap.lookup_replay_append _ fun change hmem hon => ?_
  obtain ⟨haccepted, hsk⟩ := touch_on_iff.mp hon
  exact hlater change hmem haccepted hsk

theorem elapsed_of_preceding {targetFamily : Int16} {past : List StateChange}
    {change : StateChange} {sk : UInt64} {earlier : List StateChange}
    {prev : StateChange}
    (hclock : (past ++ [change]).Pairwise fun a b => a.ktime ≤ b.ktime)
    (h : Preceding targetFamily past sk earlier prev) :
    Elapsed prev change ((change.ktime - prev.ktime) / 1000) := by
  obtain ⟨later, rfl, -⟩ := h
  have hle : prev.ktime ≤ change.ktime :=
    (List.pairwise_append.mp hclock).2.2 prev (by simp) change (by simp)
  refine ⟨hle, ?_⟩
  rw [UInt64.toNat_div, elapsed_toNat hle]
  rfl

/-- State changes over every sequence of them. -/
theorem state_durations (targetFamily : Int16) {past : List StateChange}
    {change : StateChange}
    (hclock : (past ++ [change]).Pairwise fun a b => a.ktime ≤ b.ktime)
    {output : Option TcpstateEvent} {before after : Maps capacity}
    (hbefore : before = mapsAfter capacity ⟨false, false, targetFamily⟩ past)
    (hhandle : handle ⟨false, false, targetFamily⟩ change before =
      (output, after)) :
    (output ≠ none ↔ change.Accepted targetFamily) ∧
      (∀ e, output = some e → e.deltaUs = 0 ∨
        ∃ earlier prev,
          Preceding targetFamily past change.ctx.skaddr earlier prev ∧
          prev.ctx.newstate ≠ tcpClose ∧ Elapsed prev change e.deltaUs) ∧
      (∀ e, output = some e → ∀ earlier prev,
        Preceding targetFamily past change.ctx.skaddr earlier prev →
        (mapsAfter capacity ⟨false, false, targetFamily⟩
          (earlier ++ [prev])).timestamps.lookup change.ctx.skaddr =
            some prev.ktime →
        Elapsed prev change e.deltaUs) ∧
      (change.Accepted targetFamily → change.ctx.newstate = tcpClose →
        after.timestamps.lookup change.ctx.skaddr = none) := by
  by_cases haccepted : change.Accepted targetFamily
  · rw [handle_accepted haccepted] at hhandle
    cases hhandle
    refine ⟨iff_of_true (by simp) haccepted, ?_, ?_, fun _ hclose => ?_⟩
    · rintro _ ⟨⟩
      cases hlookup : before.timestamps.lookup change.ctx.skaddr with
      | none => exact .inl rfl
      | some tsp =>
          rw [hbefore] at hlookup
          obtain ⟨earlier, prev, hpreceding, hopen, rfl⟩ :=
            preceding_of_lookup hlookup
          exact .inr ⟨earlier, prev, hpreceding, hopen,
            elapsed_of_preceding hclock hpreceding⟩
    · rintro _ ⟨⟩ earlier prev hpreceding hstored
      rw [← lookup_of_preceding hpreceding, ← hbefore] at hstored
      rw [hstored]
      exact elapsed_of_preceding hclock hpreceding
    · rw [touch, if_pos haccepted, if_pos hclose]
      exact BoundedMap.lookup_delete _
  · rw [handle_ignored haccepted] at hhandle
    cases hhandle
    exact ⟨iff_of_false (by simp) haccepted, by simp, by simp,
      fun h => absurd h haccepted⟩

/-- A change of one IPv4 socket, whose memory cannot be read. -/
def changeAt (ktime : UInt64) (oldstate newstate : Int32) : StateChange where
  task := ⟨0, ktime, none, fun _ => none⟩
  ctx := ⟨64, oldstate, newstate, 80, 8080, afInet, ipprotoTcp⟩

theorem state_durations_closed :
    ∃ (e : TcpstateEvent) (after : Maps 1),
      handle .loaded (changeAt 12000 1 7)
          (mapsAfter 1 .loaded [changeAt 5000 2 1]) = (some e, after) ∧
        Elapsed (changeAt 5000 2 1) (changeAt 12000 1 7) e.deltaUs ∧
        after.timestamps.lookup 64 = none := by
  have hpreceding : Preceding 2 [changeAt 5000 2 1] 64 [] (changeAt 5000 2 1) :=
    ⟨[], rfl, by decide, rfl, by simp⟩
  obtain ⟨e, after, hhandle⟩ : ∃ (e : TcpstateEvent) (after : Maps 1),
      handle .loaded (changeAt 12000 1 7)
        (mapsAfter 1 .loaded [changeAt 5000 2 1]) = (some e, after) :=
    ⟨_, _, rfl⟩
  obtain ⟨-, -, hstored, hclosed⟩ := state_durations 2 (by decide) rfl hhandle
  exact ⟨e, after, hhandle, hstored e rfl [] _ hpreceding rfl,
    hclosed (by decide) rfl⟩

end TinyBpfLog.Bpftools.TcpState
