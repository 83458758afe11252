import TinyBpfLog.Bpftools.Filters

/-!
# The filter of source addresses

For an IPv4 socket the program copies 16 bytes from `skc_rcv_saddr` on, of which
four are the address.  The others are those of the fields behind it, and the
whitelist is searched for all 16.
-/

namespace TinyBpfLog.Bpftools

open Foundation TcpState

/--
`event` is made for an IPv4 socket that has `address` as its `skc_rcv_saddr`, and
`behind` after it.
-/
def Delivered (address behind : Bytes) (event : TcpstateEvent) : Prop :=
  ∃ (capacity : Nat) (task : Task) (ctx : Context) (maps : Maps capacity),
    ctx.family = afInet ∧
    task.kernel.Holds (ctx.skaddr + skcRcvSaddr) (address ++ behind) ∧
    (handleSetState .loaded task ctx maps).1 = some event

/-- Events with equal addresses, pids and ports are treated alike. -/
def AddressOnly (config : TcpStateConfig) : Prop :=
  ∀ (libc libc' : Libc) (address behind behind' : Bytes)
    (event event' : TcpstateEvent),
    address.length = 4 → behind.length = 12 → behind'.length = 12 →
    Delivered address behind event → Delivered address behind' event' →
    event.pid = event'.pid → event.sport = event'.sport →
    event.dport = event'.dport →
    ((tcpstateHandleEvent libc config event).isSome = true ↔
      (tcpstateHandleEvent libc' config event').isSome = true)

theorem handleSetState_ipv4 {capacity : Nat} (task : Task) (maps : Maps capacity)
    {ctx : Context} (hprotocol : ctx.protocol = ipprotoTcp)
    (hfamily : ctx.family = afInet) :
    ∃ deltaUs, (handleSetState .loaded task ctx maps).1 =
      some (fillEvent task ctx deltaUs) := by
  have haccepted : StateChange.Accepted 2 ⟨task, ctx⟩ :=
    ⟨hprotocol, fun _ => by rw [hfamily]; rfl⟩
  have hhandle := @handle_accepted capacity 2 ⟨task, ctx⟩ maps haccepted
  exact ⟨_, congrArg Prod.fst hhandle⟩

theorem Delivered.saddr {address behind : Bytes} {event : TcpstateEvent}
    (h : Delivered address behind event)
    (hlength : (address ++ behind).length = 16) :
    event.saddr = littleEndian 16 (address ++ behind) := by
  obtain ⟨capacity, task, ctx, maps, hfamily, hholds, hevent⟩ := h
  have hprotocol : ctx.protocol = ipprotoTcp := by
    by_contra hne
    rw [handleSetState, if_pos hne] at hevent
    cases hevent
  obtain ⟨deltaUs, hfill⟩ := handleSetState_ipv4 task maps hprotocol hfamily
  rw [hfill] at hevent
  cases hevent
  have hread := probeReadKernel_of_holds hholds
  rw [hlength] at hread
  rw [fillEvent, if_pos hfamily, readAddr, hread]

/-- The address is in the 32 low bits of what is copied. -/
theorem setWidth_littleEndian {address : Bytes} (hlength : address.length = 4)
    (behind : Bytes) :
    (littleEndian 16 (address ++ behind)).setWidth 32 =
      BitVec.ofNat 32 (Nat.ofDigits 256 (address.map UInt8.toNat)) := by
  apply BitVec.eq_of_toNat_eq
  rw [littleEndian_append, hlength]
  simp only [BitVec.toNat_setWidth, BitVec.toNat_ofNat]
  omega

/-! ## A socket with given contents -/

/-- The kernel has `bytes` at `skc_rcv_saddr` of a socket at address 0. -/
def socketTask (pid : UInt32) (bytes : Bytes) : Task where
  pidTgid := pid.toUInt64 <<< 32
  ktime := 0
  comm := none
  kernel address := bytes[(address - skcRcvSaddr).toNat]?

def socketChange (sport dport : UInt16) : Context where
  skaddr := 0
  oldstate := 0
  newstate := 0
  sport := sport
  dport := dport
  family := afInet
  protocol := ipprotoTcp

def socketEvent (pid : UInt32) (sport dport : UInt16) (bytes : Bytes) :
    TcpstateEvent :=
  fillEvent (socketTask pid bytes) (socketChange sport dport) 0

theorem pidOf_shiftLeft (pid : UInt32) : pidOf (pid.toUInt64 <<< 32) = pid := by
  apply UInt32.toNat.inj
  simp [pidOf, UInt64.toNat_shiftLeft, UInt64.toNat_shiftRight, Nat.shiftLeft_eq,
    Nat.shiftRight_eq_div_pow]
  have := pid.toNat_lt
  omega

section SocketEvent

variable (pid : UInt32) (sport dport : UInt16) (bytes : Bytes)

@[simp] theorem socketEvent_pid : (socketEvent pid sport dport bytes).pid = pid :=
  pidOf_shiftLeft pid

@[simp] theorem socketEvent_sport :
    (socketEvent pid sport dport bytes).sport = sport := rfl

@[simp] theorem socketEvent_dport :
    (socketEvent pid sport dport bytes).dport = dport := rfl

end SocketEvent

theorem delivered_socketEvent (pid : UInt32) (sport dport : UInt16)
    {address behind : Bytes} (hsize : (address ++ behind).length < 2 ^ 64) :
    Delivered address behind (socketEvent pid sport dport (address ++ behind)) := by
  refine ⟨0, socketTask pid (address ++ behind), socketChange sport dport, .empty, rfl,
    fun i hi => ?_, rfl⟩
  have hback : (0 + skcRcvSaddr + i.toUInt64 - skcRcvSaddr).toNat = i := by
    rw [UInt64.zero_add, UInt64.add_comm, UInt64.add_sub_cancel]
    exact Nat.mod_eq_of_lt (hi.trans hsize)
  change (address ++ behind)[_]? = _
  rw [show (socketChange sport dport).skaddr = 0 from rfl, hback]

/-- With 16 bytes of its own each 128-bit value is the address of an event. -/
theorem exists_delivered (pid : UInt32) (sport dport : UInt16) (x : BitVec 128) :
    ∃ behind event, behind.length = 12 ∧
      Delivered (lowBytes 4 (x.setWidth 32).toNat) behind event ∧
      event.saddr = x ∧ event.pid = pid ∧ event.sport = sport ∧
      event.dport = dport := by
  let address := lowBytes 4 (x.setWidth 32).toNat
  let behind := lowBytes 12 (x.toNat / 2 ^ 32)
  have hlength : (address ++ behind).length = 16 := by simp [address, behind]
  have hdelivered := @delivered_socketEvent pid sport dport address behind
    (by rw [hlength]; decide)
  refine ⟨behind, _, by simp [behind], hdelivered, ?_, socketEvent_pid _ _ _ _,
    rfl, rfl⟩
  rw [hdelivered.saddr hlength, littleEndian_append, ofDigits_lowBytes,
    ofDigits_lowBytes, length_lowBytes]
  apply BitVec.eq_of_toNat_eq
  simp only [BitVec.toNat_ofNat, BitVec.toNat_setWidth]
  have := x.isLt
  omega

/-! ## When the verdict depends on the address only -/

/-- With each value all those that have the same 32 low bits. -/
def Saturated (values : Finset (BitVec 128)) : Prop :=
  ∀ x y : BitVec 128, x.setWidth 32 = y.setWidth 32 → (x ∈ values ↔ y ∈ values)

section Verdict

variable {config : TcpStateConfig}

theorem isSaddrFilter_eq_false_iff (henabled : config.saddrWhite.enabled = true)
    (value : BitVec 128) :
    config.isSaddrFilter value = false ↔ value ∈ config.saddrWhite.values := by
  have hfilters := @Whitelist.filters_eq_false_iff _ _ value config.saddrWhite
  exact hfilters.trans (imp_iff_right henabled)

theorem saturated_of_addressOnly (h : AddressOnly config)
    (henabled : config.saddrWhite.enabled = true)
    (hpid : ¬ config.pidWhite.Closed) (hsport : ¬ config.sportWhite.Closed)
    (hdport : ¬ config.dportWhite.Closed) : Saturated config.saddrWhite.values := by
  obtain ⟨pid, hpid⟩ := Whitelist.not_closed_iff.mp hpid
  obtain ⟨sport, hsport⟩ := Whitelist.not_closed_iff.mp hsport
  obtain ⟨dport, hdport⟩ := Whitelist.not_closed_iff.mp hdport
  intro x y hxy
  have hlogs : ∀ {event : TcpstateEvent}, event.pid = pid → event.sport = sport →
      event.dport = dport →
      ((tcpstateHandleEvent default config event).isSome = true ↔
        event.saddr ∈ config.saddrWhite.values) := by
    rintro event rfl rfl rfl
    rw [tcpstateHandleEvent_logs_iff, ← isSaddrFilter_eq_false_iff henabled]
    exact ⟨fun hall => hall.2.1, fun hsaddr => ⟨hpid, hsaddr, hsport, hdport⟩⟩
  obtain ⟨behind, event, hlength, hdelivered, rfl, hpid₁, hsport₁, hdport₁⟩ :=
    exists_delivered pid sport dport x
  obtain ⟨behind', event', hlength', hdelivered', rfl, hpid₂, hsport₂, hdport₂⟩ :=
    exists_delivered pid sport dport y
  rw [← hxy] at hdelivered'
  rw [← hlogs hpid₁ hsport₁ hdport₁, ← hlogs hpid₂ hsport₂ hdport₂]
  exact h default default _ behind behind' event event' (length_lowBytes _ _)
    hlength hlength' hdelivered hdelivered' (hpid₁.trans hpid₂.symm)
    (hsport₁.trans hsport₂.symm) (hdport₁.trans hdport₂.symm)

/-- Events that the address filter cannot tell apart are treated alike. -/
theorem addressOnly_of_saddr
    (h : ∀ x y : BitVec 128, x.setWidth 32 = y.setWidth 32 →
      (config.isSaddrFilter x = false ↔ config.isSaddrFilter y = false)) :
    AddressOnly config := by
  intro libc libc' address behind behind' event event' haddress hbehind hbehind'
    hdelivered hdelivered' hpid hsport hdport
  have hsaddr : event.saddr.setWidth 32 = event'.saddr.setWidth 32 := by
    rw [hdelivered.saddr (by rw [List.length_append, haddress, hbehind]),
      hdelivered'.saddr (by rw [List.length_append, haddress, hbehind']),
      setWidth_littleEndian haddress, setWidth_littleEndian haddress]
  rw [tcpstateHandleEvent_logs_iff, tcpstateHandleEvent_logs_iff, hpid, hsport,
    hdport, h _ _ hsaddr]

theorem addressOnly_of_disabled (h : config.saddrWhite.enabled = false) :
    AddressOnly config :=
  addressOnly_of_saddr fun _ _ _ =>
    iff_of_true (Whitelist.filters_disabled h) (Whitelist.filters_disabled h)

theorem addressOnly_of_saturated (h : Saturated config.saddrWhite.values) :
    AddressOnly config := by
  by_cases henabled : config.saddrWhite.enabled = true
  · refine addressOnly_of_saddr fun x y hxy => ?_
    rw [isSaddrFilter_eq_false_iff henabled, isSaddrFilter_eq_false_iff henabled,
      h x y hxy]
  · exact addressOnly_of_disabled (by simpa using henabled)

/-- Nothing is logged where another whitelist is closed. -/
theorem addressOnly_of_closed
    (h : config.pidWhite.Closed ∨ config.sportWhite.Closed ∨
      config.dportWhite.Closed) : AddressOnly config := by
  have hnever : ∀ {libc : Libc} {event : TcpstateEvent},
      ¬ (tcpstateHandleEvent libc config event).isSome = true := by
    intro libc event hlogs
    obtain ⟨hpid, -, hsport, hdport⟩ := tcpstateHandleEvent_logs_iff.mp hlogs
    rcases h with hclosed | hclosed | hclosed
    · exact Whitelist.not_closed_iff.mpr ⟨event.pid, hpid⟩ hclosed
    · exact Whitelist.not_closed_iff.mpr ⟨event.sport, hsport⟩ hclosed
    · exact Whitelist.not_closed_iff.mpr ⟨event.dport, hdport⟩ hclosed
  exact fun _ _ _ _ _ _ _ _ _ _ _ _ _ _ _ => iff_of_false hnever hnever

theorem addressOnly_iff (config : TcpStateConfig) :
    AddressOnly config ↔
      config.saddrWhite.enabled = false ∨ config.pidWhite.Closed ∨
        config.sportWhite.Closed ∨ config.dportWhite.Closed ∨
        Saturated config.saddrWhite.values := by
  constructor
  · intro h
    by_contra hnone
    simp only [not_or, Bool.not_eq_false] at hnone
    obtain ⟨henabled, hpid, hsport, hdport, hunsaturated⟩ := hnone
    exact hunsaturated (saturated_of_addressOnly h henabled hpid hsport hdport)
  · rintro (hdisabled | hpid | hsport | hdport | hsaturated)
    · exact addressOnly_of_disabled hdisabled
    · exact addressOnly_of_closed (.inl hpid)
    · exact addressOnly_of_closed (.inr (.inl hsport))
    · exact addressOnly_of_closed (.inr (.inr hdport))
    · exact addressOnly_of_saturated hsaturated

end Verdict

/-- What follows `skc_rcv_saddr` in a socket: hash, ports, family and state. -/
def behindLoopback (hash : UInt8) : Bytes :=
  [hash, 0, 0, 0, 0x1f, 0x90, 0x39, 0x30, 2, 0, 1, 0]

/-- The address is whitelisted with the hash of the first of two sockets. -/
theorem loopback_filtered_by_hash :
    let event hash :=
      socketEvent 7 12345 8080 ([127, 0, 0, 1] ++ behindLoopback hash)
    let config := (TcpStateConfig.new [] []).addSaddr (event 1).saddr
    (∀ hash, Delivered [127, 0, 0, 1] (behindLoopback hash) (event hash)) ∧
      (tcpstateHandleEvent default config (event 1)).isSome = true ∧
      ¬ (tcpstateHandleEvent default config (event 2)).isSome = true ∧
      ¬ AddressOnly config := by
  intro event config
  have hdelivered : ∀ hash,
      Delivered [127, 0, 0, 1] (behindLoopback hash) (event hash) := fun hash =>
    delivered_socketEvent 7 12345 8080 (show 16 < 2 ^ 64 by decide)
  have hlogged : (tcpstateHandleEvent default config (event 1)).isSome = true :=
    tcpstateHandleEvent_logs_iff.mpr ⟨rfl, by decide, rfl, rfl⟩
  have hfiltered : ¬ (tcpstateHandleEvent default config (event 2)).isSome = true := by
    intro hlogs
    have hsaddr := (tcpstateHandleEvent_logs_iff.mp hlogs).2.1
    exact absurd hsaddr (by decide)
  refine ⟨hdelivered, hlogged, hfiltered, fun h => hfiltered ?_⟩
  exact (h default default _ _ _ _ _ rfl rfl rfl (hdelivered 1) (hdelivered 2)
    (by simp [event]) (by simp [event]) (by simp [event])).mp hlogged

end TinyBpfLog.Bpftools
