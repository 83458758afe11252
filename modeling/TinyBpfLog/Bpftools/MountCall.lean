import Mathlib.Data.Nat.Bitwise
import TinyBpfLog.Bpftools.Handlers
import TinyBpfLog.Foundation.Strcat

/-!
# The text of a mount call

What `strflags` makes of the flags, and that the buffers of `strflags`,
`strerrno` and `gen_call` have room for every call.  The mask of a flag is an
`int`, so that of the last one has all the bits above its own as well.
-/

namespace TinyBpfLog.Bpftools

open Foundation Printf

/-! ## The names of the flags -/

/-- What the loop of `strflags` appends, from the name at `i` on. -/
def shownNames (flags : UInt64) (i : Nat) (names : List Bytes) : List Bytes :=
  ((names.zipIdx i).filter fun named => flagMask named.2 &&& flags ≠ 0).map Prod.fst

/-- The names of the bits that are set, the lowest first. -/
def setNames (flags : UInt64) : List Bytes :=
  ((List.range 32).filter fun i => flags.toNat.testBit i).map fun i =>
    flagNames.getD i []

theorem shownNames_cons (flags : UInt64) (i : Nat) (name : Bytes)
    (names : List Bytes) :
    shownNames flags i (name :: names) =
      if flagMask i &&& flags = 0 then shownNames flags (i + 1) names
      else name :: shownNames flags (i + 1) names := by
  by_cases hmask : flagMask i &&& flags = 0 <;>
    simp [shownNames, List.zipIdx_cons, hmask]

theorem shownNames_sublist (flags : UInt64) (i : Nat) (names : List Bytes) :
    (shownNames flags i names).Sublist names := by
  have hsublist := (@List.filter_sublist _
    (fun named : Bytes × Nat => decide (flagMask named.2 &&& flags ≠ 0))
    (names.zipIdx i)).map Prod.fst
  rwa [List.zipIdx_map_fst] at hsublist

theorem strflagsFrom_eq_joinFrom (flags : UInt64) (i : Nat) (names : List Bytes)
    (str : Bytes) :
    strflagsFrom flags i names str =
      joinFrom (ascii " | ") (shownNames flags i names) str := by
  induction names generalizing i str with
  | nil => rfl
  | cons name names ih =>
      rw [strflagsFrom, shownNames_cons]
      split
      · exact ih (i + 1) str
      · rw [joinFrom, ih]

theorem strflags_eq_joinFrom {flags : UInt64} (h : flags ≠ 0) :
    strflags flags = joinFrom (ascii " | ") (shownNames flags 0 flagNames) [] := by
  rw [strflags, if_neg h, strflagsFrom_eq_joinFrom]

/-- The names are C strings, and leave room in `str[512]`. -/
theorem flagNames_plain :
    (∀ name ∈ flagNames, name ≠ [] ∧ (0 : UInt8) ∉ name) ∧
      joinLength (ascii " | ") flagNames < 512 := by decide +kernel

theorem shownNames_plain {flags : UInt64} {name : Bytes}
    (h : name ∈ shownNames flags 0 flagNames) : name ≠ [] ∧ (0 : UInt8) ∉ name :=
  flagNames_plain.1 name ((shownNames_sublist flags 0 flagNames).subset h)

/-! ## The masks -/

theorem flagMask_of_lt {i : Nat} (h : i < 31) :
    flagMask i = UInt64.ofNat (2 ^ i) := by
  have hall : (List.range 31).map flagMask =
      (List.range 31).map fun i => UInt64.ofNat (2 ^ i) := by decide
  exact List.map_inj_left.mp hall i (List.mem_range.mpr h)

theorem flagMask_and_eq_zero_iff {i : Nat} (h : i < 31) (flags : UInt64) :
    flagMask i &&& flags = 0 ↔ flags.toNat.testBit i = false := by
  have hsize : 2 ^ i < 2 ^ 64 := Nat.pow_lt_pow_right (by decide) (by omega)
  rw [flagMask_of_lt h, ← UInt64.toNat_inj, UInt64.toNat_and,
    UInt64.toNat_ofNat_of_lt' hsize, Nat.and_comm, Nat.and_two_pow]
  cases flags.toNat.testBit i <;> simp

/-- The sign of `1 << 31` is extended over all the bits above. -/
theorem flagMask_last_and_eq_zero_iff (flags : UInt64) :
    flagMask 31 &&& flags = 0 ↔ flags.toNat < 2 ^ 31 := by
  have hmask : (flagMask 31).toNat = (2 ^ 33 - 1) <<< 31 := by decide
  have hhigh : (flags.toNat >>> 31) &&& (2 ^ 33 - 1) = flags.toNat >>> 31 := by
    have hsize := flags.toNat_lt
    rw [Nat.and_two_pow_sub_one_eq_mod, Nat.shiftRight_eq_div_pow]
    omega
  have hand : (2 ^ 33 - 1) <<< 31 &&& flags.toNat = (flags.toNat >>> 31) <<< 31 := by
    rw [← hhigh]
    apply Nat.eq_of_testBit_eq
    intro i
    simp only [Nat.testBit_and, Nat.testBit_shiftLeft, Nat.testBit_shiftRight]
    by_cases hi : 31 ≤ i
    · simp [hi, Bool.and_comm, show 31 + (i - 31) = i by omega]
    · simp [hi]
  rw [← UInt64.toNat_inj, UInt64.toNat_and, hmask, hand, Nat.shiftLeft_eq,
    Nat.shiftRight_eq_div_pow]
  simp

/-! ## When the names are those of the set bits -/

/-- The names below the last one, on which the loop and the bits agree. -/
def lowNames (flags : UInt64) : List Bytes :=
  ((List.range 31).filter fun i => flags.toNat.testBit i).map fun i =>
    flagNames.getD i []

def lastName : Bytes := ascii "MS_NOUSER"

theorem setNames_eq (flags : UInt64) :
    setNames flags =
      lowNames flags ++ if flags.toNat.testBit 31 then [lastName] else [] := by
  rw [setNames, List.range_succ, List.filter_append, List.map_append, lowNames]
  cases hlast : flags.toNat.testBit 31 <;> simp [hlast, flagNames, lastName]

theorem flagNames_zipIdx :
    flagNames.zipIdx = (List.range 32).map fun i => (flagNames.getD i [], i) := by
  refine List.ext_getElem (by simp [flagNames]) fun i hi _ => ?_
  have hi' : i < flagNames.length := by simpa using hi
  simp [List.getD, hi']

theorem shownNames_eq (flags : UInt64) :
    shownNames flags 0 flagNames =
      lowNames flags ++ if flags.toNat < 2 ^ 31 then [] else [lastName] := by
  have hlow : (List.range 31).filter (fun i => flagMask i &&& flags ≠ 0) =
      (List.range 31).filter fun i => flags.toNat.testBit i := by
    refine List.filter_congr fun i hi => ?_
    have hmask := flagMask_and_eq_zero_iff (List.mem_range.mp hi) flags
    cases hbit : flags.toNat.testBit i <;> simp [hmask, hbit]
  rw [shownNames, flagNames_zipIdx, List.filter_map, List.map_map, List.range_succ,
    List.filter_append, List.map_append, lowNames, ← hlow]
  refine congrArg₂ _ rfl ?_
  by_cases hlast : flags.toNat < 2 ^ 31
  · have hmask := (flagMask_last_and_eq_zero_iff flags).mpr hlast
    rw [if_pos hlast]
    simp [hmask]
  · have hmask := mt (flagMask_last_and_eq_zero_iff flags).mp hlast
    rw [if_neg hlast]
    simp [hmask, flagNames, lastName]

theorem setNames_ne_nil {flags : UInt64} {name : Bytes} (h : name ∈ setNames flags) :
    name ≠ [] := by
  obtain ⟨i, hi, rfl⟩ := List.mem_map.mp h
  have hlt : i < flagNames.length := List.mem_range.mp (List.mem_of_mem_filter hi)
  rw [List.getD_eq_getElem _ _ hlt]
  exact (flagNames_plain.1 _ (List.getElem_mem hlt)).1

/-- A bit above the last name is shown as the last name is. -/
theorem strflags_exact_iff {flags : UInt64} (h : flags ≠ 0) :
    strflags flags = (ascii " | ").intercalate (setNames flags) ↔
      flags.toNat < 2 ^ 32 ∨ flags.toNat.testBit 31 = true := by
  rw [strflags_eq_joinFrom h, ← joinFrom_nil fun _ => setNames_ne_nil, shownNames_eq,
    setNames_eq]
  by_cases hlow : flags.toNat < 2 ^ 31
  · rw [if_pos hlow, Nat.testBit_lt_two_pow hlow]
    exact iff_of_true rfl (.inl (hlow.trans (by decide)))
  · rw [if_neg hlow]
    cases hlast : flags.toNat.testBit 31 with
    | true => exact iff_of_true rfl (.inr rfl)
    | false =>
        refine iff_of_false (fun heq => ?_) (fun hor => ?_)
        · have hlength := length_joinFrom_concat (ascii " | ") (lowNames flags) []
            (show lastName ≠ [] by decide)
          rw [heq, if_neg (by simp), List.append_nil] at hlength
          exact absurd hlength (Nat.lt_irrefl _)
        · have hsize := hor.resolve_right (by simp)
          rw [Nat.testBit_eq_decide_div_mod_eq, decide_eq_false_iff_not] at hlast
          omega

theorem strflags_exact_iff_remount :
    strflags 33 = (ascii " | ").intercalate (setNames 33) ↔
      (33 : UInt64).toNat < 2 ^ 32 ∨ (33 : UInt64).toNat.testBit 31 = true :=
  strflags_exact_iff (by decide)

/-- Only bit 32 is set. -/
theorem strflags_shows_unset_bit :
    setNames 0x100000000 = [] ∧ strflags 0x100000000 = ascii "MS_NOUSER" ∧
      strflags 0x100000000 ≠ (ascii " | ").intercalate (setNames 0x100000000) := by
  have hnone : setNames 0x100000000 = [] := by decide
  have hshown : strflags 0x100000000 = ascii "MS_NOUSER" := by
    rw [strflags_eq_joinFrom (by decide), shownNames_eq]
    rfl
  refine ⟨hnone, hshown, ?_⟩
  rw [hnone, hshown]
  decide

/-! ## The buffers -/

/-- The loop of `strflags` in `str[size]`; `none` when a byte goes behind it. -/
def strflagsLoop (size : Nat) (flags : UInt64) :
    Nat → List Bytes → Bytes → Option Bytes
  | _, [], str => some str
  | i, name :: names, str =>
      if flagMask i &&& flags = 0 then strflagsLoop size flags (i + 1) names str
      else do
        let str ← if str = [] then some str else strcat size str (ascii " | ")
        let str ← strcat size str name
        strflagsLoop size flags (i + 1) names str

def strflagsIn (size : Nat) (flags : UInt64) : Option Bytes :=
  if flags = 0 then some (ascii "0x0") else strflagsLoop size flags 0 flagNames []

theorem strflagsLoop_eq_joinIn (size : Nat) (flags : UInt64) (i : Nat)
    (names : List Bytes) (str : Bytes) :
    strflagsLoop size flags i names str =
      joinIn size (ascii " | ") (shownNames flags i names) str := by
  induction names generalizing i str with
  | nil => rfl
  | cons name names ih =>
      rw [strflagsLoop, shownNames_cons]
      split
      · exact ih (i + 1) str
      · simp only [joinIn, ih]

/-- `str[512]` has room for the names of any flags. -/
theorem strflagsIn_eq (flags : UInt64) :
    strflagsIn 512 flags = some (strflags flags) ∧ (strflags flags).length < 512 := by
  by_cases hflags : flags = 0
  · rw [strflagsIn, strflags, if_pos hflags, if_pos hflags]
    exact ⟨rfl, by decide⟩
  · have hroom := joinLength_le_of_sublist (ascii " | ")
      (shownNames_sublist flags 0 flagNames)
    rw [strflagsIn, if_neg hflags, strflagsLoop_eq_joinIn,
      strflags_eq_joinFrom hflags]
    refine joinIn_eq_some ?_
    rw [List.length_nil, Nat.zero_add]
    exact hroom.trans_lt flagNames_plain.2

theorem zero_notMem_strflags (flags : UInt64) : (0 : UInt8) ∉ strflags flags := by
  by_cases hflags : flags = 0
  · rw [strflags, if_pos hflags]
    decide
  · rw [strflags_eq_joinFrom hflags]
    exact notMem_joinFrom (by decide) (fun name hname => (shownNames_plain hname).2)
      (by simp)

/-- What `strerrno` returns when nothing is cut. -/
def errnoText (libc : Libc) (errnum : Int32) : Bytes :=
  if errnum = 0 then ascii "0"
  else
    match libc.strerrornameNp (-errnum) with
    | none => ascii (toString errnum.toInt)
    | some errstr => 45 :: cString errstr

theorem sprintf_int (errnum : Int32) :
    sprintf "%d" [int errnum] = ascii (toString errnum.toInt) := by
  have hparse : parse "%d" = [.directive {} .signed] := rfl
  simp [sprintf, hparse, format, Layout.convert, Layout.signed, int, Argument.bits]

theorem sprintf_errstr (libc : Libc) (errstr : Bytes) :
    sprintf "-%s" [libc.str 0 errstr] = 45 :: cString errstr := by
  have hparse : parse "-%s" = stringPieces ["-", ""] := rfl
  rw [sprintf, hparse, Libc.str, format_stringPieces_cons, format_stringPieces_last]
  simp [ascii]

theorem zero_notMem_errnoText (libc : Libc) (errnum : Int32) :
    (0 : UInt8) ∉ errnoText libc errnum := by
  rw [errnoText]
  split
  · decide
  · split
    · exact zero_notMem_ascii_toString_int _
    · next errstr _ => simp [zero_notMem_cString errstr]

/-- What is assumed of the names of errors. -/
def Libc.ShortNames (libc : Libc) : Prop :=
  ∀ errnum errstr, libc.strerrornameNp errnum = some errstr →
    (cString errstr).length ≤ 29

section Fits

variable {libc : Libc}

theorem errnoText_length_lt (hnames : libc.ShortNames) (errnum : Int32) :
    (errnoText libc errnum).length < 32 := by
  rw [errnoText]
  split
  · decide
  · split
    · have hrange : errnum.toInt.natAbs < 10 ^ 10 := by
        have hlt := errnum.toInt_lt
        have hge := errnum.le_toInt
        omega
      have hlength := ascii_toString_int_length_le (by decide) hrange
      omega
    · next errstr hname =>
        have hlength := hnames _ _ hname
        rw [List.length_cons]
        omega

/-- `ret[32]` has room for the name or the number of any error. -/
theorem strerrno_eq (hnames : libc.ShortNames) (errnum : Int32) :
    strerrno libc errnum = errnoText libc errnum := by
  have hlength := errnoText_length_lt hnames errnum
  rw [errnoText] at hlength ⊢
  rw [strerrno]
  by_cases herrnum : errnum = 0
  · rw [if_pos herrnum, if_pos herrnum]
  · rw [if_neg herrnum] at hlength
    rw [if_neg herrnum, if_neg herrnum]
    cases hname : libc.strerrornameNp (-errnum) with
    | none =>
        simp only [hname] at hlength
        rw [← sprintf_int] at hlength
        exact (snprintf_of_lt hlength).trans (sprintf_int errnum)
    | some errstr =>
        simp only [hname] at hlength
        rw [← sprintf_errstr libc] at hlength
        exact (snprintf_of_lt hlength).trans (sprintf_errstr libc errstr)

/-- What `gen_call` returns when nothing is cut. -/
def callText (libc : Libc) (me : Mount.MountEvent) : Bytes :=
  match me.op with
  | .umount =>
      ascii "umount(\"" ++ (me.dest.text ++ (ascii "\", " ++
        (strflags me.flags ++ (ascii ") = " ++ errnoText libc me.ret))))
  | .mount =>
      ascii "mount(\"" ++ (me.src.text ++ (ascii "\", \"" ++ (me.dest.text ++
        (ascii "\", \"" ++ (me.fs.text ++ (ascii "\", " ++
          (strflags me.flags ++ (ascii ", \"" ++ (me.data.text ++
            (ascii "\") = " ++ errnoText libc me.ret))))))))))

/-- The arrays of the event hold C strings. -/
structure Terminated (me : Mount.MountEvent) : Prop where
  src : (0 : UInt8) ∈ me.src.bytes
  dest : (0 : UInt8) ∈ me.dest.bytes
  fs : (0 : UInt8) ∈ me.fs.bytes
  data : (0 : UInt8) ∈ me.data.bytes

theorem callText_length_lt (hnames : libc.ShortNames) {me : Mount.MountEvent}
    (h : Terminated me) :
    (callText libc me).length < 10240 := by
  have hflags := (strflagsIn_eq me.flags).2
  have herrno := errnoText_length_lt hnames me.ret
  have hsrc : me.src.text.length < 4096 := CharArray.length_text_lt h.src
  have hdest : me.dest.text.length < 4096 := CharArray.length_text_lt h.dest
  have hfs : me.fs.text.length < 8 := CharArray.length_text_lt h.fs
  have hdata : me.data.text.length < 512 := CharArray.length_text_lt h.data
  rw [callText]
  split
  · simp only [List.length_append, show (ascii "umount(\"").length = 8 from rfl,
      show (ascii "\", ").length = 3 from rfl, show (ascii ") = ").length = 4 from rfl]
    omega
  · simp only [List.length_append, show (ascii "mount(\"").length = 7 from rfl,
      show (ascii "\", \"").length = 4 from rfl, show (ascii "\", ").length = 3 from rfl,
      show (ascii ", \"").length = 3 from rfl, show (ascii "\") = ").length = 5 from rfl]
    omega

theorem genCall_eq_take (hnames : libc.ShortNames) (me : Mount.MountEvent) :
    genCall libc me = (callText libc me).take (10240 - 1) := by
  have hflags := cString_eq_self (zero_notMem_strflags me.flags)
  have herrno : cString (strerrno libc me.ret) = errnoText libc me.ret := by
    rw [strerrno_eq hnames]
    exact cString_eq_self (zero_notMem_errnoText libc me.ret)
  have humount : parse "umount(\"%s\", %s) = %s" =
      stringPieces ["umount(\"", "\", ", ") = ", ""] := rfl
  have hmount : parse "mount(\"%s\", \"%s\", \"%s\", %s, \"%s\") = %s" =
      stringPieces ["mount(\"", "\", \"", "\", \"", "\", ", ", \"", "\") = ", ""] :=
    rfl
  have hend : ascii "" = [] := rfl
  cases hop : me.op with
  | umount =>
      simp only [genCall, callText, hop, snprintf, sprintf, humount, Libc.str,
        format_stringPieces_cons, format_stringPieces_last, CharArray.cString_text,
        hflags, herrno, hend, List.append_nil]
  | mount =>
      simp only [genCall, callText, hop, snprintf, sprintf, hmount, Libc.str,
        format_stringPieces_cons, format_stringPieces_last, CharArray.cString_text,
        hflags, herrno, hend, List.append_nil]

end Fits

/-- What the exit programs hand over is terminated. -/
theorem terminated_of_probeExit {capacity : Nat} {task : Mount.Task} {ret : Int32}
    {state : Mount.State capacity} {me : Mount.MountEvent}
    (h : (Mount.probeExit task ret state).1 = some me) : Terminated me := by
  have hread : ∀ (ptr : UInt64) {size : Nat} (field : CharArray size), 0 < size →
      (0 : UInt8) ∈ (Mount.readUserStr task ptr field).bytes := by
    intro ptr size field hsize
    rw [Mount.readUserStr]
    split
    · exact field.zero_mem_readStr hsize _
    · exact field.zero_mem_clear hsize
  rw [Mount.probeExit] at h
  dsimp only at h
  split at h
  · cases h
  · split at h
    · cases h
    · cases h
      exact ⟨hread _ _ (by decide), hread _ _ (by decide), hread _ _ (by decide),
        hread _ _ (by decide)⟩

/-- The buffers have room for every call, and its text is written to the end. -/
theorem mount_line_complete {libc : Libc} (hnames : libc.ShortNames)
    {me : Mount.MountEvent} (h : Terminated me) :
    strflagsIn 512 me.flags = some (strflags me.flags) ∧
      strerrno libc me.ret = errnoText libc me.ret ∧
      (errnoText libc me.ret).length < 32 ∧
      genCall libc me = callText libc me ∧ (callText libc me).length < 10240 := by
  have hlength := callText_length_lt hnames h
  refine ⟨(strflagsIn_eq me.flags).1, strerrno_eq hnames me.ret,
    errnoText_length_lt hnames me.ret, ?_, hlength⟩
  rw [genCall_eq_take hnames, List.take_of_length_le (Nat.le_sub_one_of_lt hlength)]

/-- A failed `mount` of `/dev/b` with three flags. -/
def failedMount : Mount.MountEvent where
  delta := 0
  flags := 0x803
  pid := 7
  tid := 7
  mntNs := 0
  ret := -22
  comm := .zeroed _
  fs := (CharArray.zeroed _).readStr (some (ascii "ext4"))
  src := (CharArray.zeroed _).readStr (some (ascii "/dev/b"))
  dest := (CharArray.zeroed _).readStr (some (ascii "/a"))
  data := (CharArray.zeroed _).readStr (some (ascii "acl"))
  op := .mount

theorem mount_line_complete_mount :
    let libc : Libc := { (default : Libc) with
      strerrornameNp := fun _ => some (ascii "EINVAL") }
    strflagsIn 512 failedMount.flags = some (ascii "MS_RDONLY | MS_NOSUID | MS_BIND") ∧
      genCall libc failedMount = callText libc failedMount ∧
      callText libc failedMount = ascii ("mount(\"/dev/b\", \"/a\", \"ext4\", " ++
        "MS_RDONLY | MS_NOSUID | MS_BIND, \"acl\") = -EINVAL") := by
  intro libc
  have hnames : libc.ShortNames := by
    rintro errnum _ ⟨⟩
    decide
  have hterminated : Terminated failedMount :=
    ⟨CharArray.zero_mem_readStr _ (by decide) _, CharArray.zero_mem_readStr _ (by decide) _,
      CharArray.zero_mem_readStr _ (by decide) _, CharArray.zero_mem_readStr _ (by decide) _⟩
  obtain ⟨hflags, -, -, hcall, -⟩ := mount_line_complete hnames hterminated
  have hsrc : failedMount.src.text = ascii "/dev/b" := CharArray.text_readStr _ (by decide) _
  have hdest : failedMount.dest.text = ascii "/a" := CharArray.text_readStr _ (by decide) _
  have hfs : failedMount.fs.text = ascii "ext4" := CharArray.text_readStr _ (by decide) _
  have hdata : failedMount.data.text = ascii "acl" := CharArray.text_readStr _ (by decide) _
  have hshown : strflags failedMount.flags = ascii "MS_RDONLY | MS_NOSUID | MS_BIND" := by
    decide
  refine ⟨hflags.trans (congrArg some hshown), hcall, ?_⟩
  rw [callText, hsrc, hdest, hfs, hdata, hshown]
  rfl

end TinyBpfLog.Bpftools
