import TinyBpfLog.Foundation.Bytes

/-!
# Character arrays

A `char` array of fixed size that holds a C string.  Writing a string sets a
prefix of the array, its NUL included, and leaves the bytes behind it as they
were.
-/

namespace TinyBpfLog.Foundation

structure CharArray (size : Nat) where
  bytes : Bytes
  length_eq : bytes.length = size
  deriving DecidableEq

namespace CharArray

variable {size : Nat}

def zeroed (size : Nat) : CharArray size :=
  ⟨List.replicate size 0, List.length_replicate⟩

def overwrite (array : CharArray size) (front : Bytes) : CharArray size where
  bytes := (front ++ array.bytes.drop front.length).take size
  length_eq := by
    simp only [List.length_take, List.length_append, List.length_drop,
      array.length_eq]
    omega

/--
The string that the array holds.  Without a NUL in the array the program reads on
behind it, and this stops; the arrays that are delivered all hold one.
-/
def text (array : CharArray size) : Bytes := cString array.bytes

/-- `array[0] = '\0'` -/
def clear (array : CharArray size) : CharArray size := array.overwrite [0]

/--
The string helpers of the kernel: at most `size - 1` bytes of the source and a
NUL, and zeros all over when the source cannot be read.
-/
def readStr (array : CharArray size) : Option Bytes → CharArray size
  | none => zeroed size
  | some source => array.overwrite ((cString source).take (size - 1) ++ [0])

theorem length_text_lt {array : CharArray size} (h : (0 : UInt8) ∈ array.bytes) :
    array.text.length < size := by
  obtain ⟨rest, hbytes⟩ := exists_eq_cString_append h
  have hlength := congrArg List.length hbytes
  rw [array.length_eq, List.length_append, List.length_cons] at hlength
  rw [text]
  omega

theorem cString_text (array : CharArray size) : cString array.text = array.text :=
  cString_eq_self (zero_notMem_cString array.bytes)

theorem bytes_overwrite (array : CharArray size) {front : Bytes}
    (hfits : front.length < size) :
    ∃ rest, (array.overwrite (front ++ [0])).bytes = front ++ 0 :: rest := by
  have hfront : (front ++ [(0 : UInt8)]).length ≤ size := by
    rw [List.length_append]
    exact hfits
  simp only [overwrite]
  rw [List.take_append, List.take_of_length_le hfront, List.append_assoc]
  exact ⟨_, rfl⟩

theorem text_overwrite (array : CharArray size) {front : Bytes}
    (hzero : (0 : UInt8) ∉ front) (hfits : front.length < size) :
    (array.overwrite (front ++ [0])).text = front := by
  obtain ⟨rest, hbytes⟩ := array.bytes_overwrite hfits
  rw [text, hbytes, cString_append_zero, cString_eq_self hzero]

theorem text_clear (array : CharArray size) (h : 0 < size) :
    array.clear.text = [] :=
  @text_overwrite size array [] (by simp) h

theorem text_zeroed (size : Nat) : (zeroed size).text = [] := by
  cases size <;> rfl

/-- What `readStr` leaves in the array, as a string. -/
def truncated (size : Nat) : Option Bytes → Bytes
  | none => []
  | some source => (cString source).take (size - 1)

theorem length_truncated_lt (h : 0 < size) (source : Bytes) :
    (truncated size (some source)).length < size := by
  rw [truncated, List.length_take]
  omega

theorem zero_notMem_truncated (size : Nat) (source : Bytes) :
    (0 : UInt8) ∉ truncated size (some source) :=
  fun hzero => zero_notMem_cString source (List.mem_of_mem_take hzero)

theorem truncated_eq_self_iff (h : 0 < size) {source : Bytes} :
    truncated size (some source) = source ↔
      source.length < size ∧ (0 : UInt8) ∉ source := by
  constructor
  · intro hself
    rw [← hself]
    exact ⟨length_truncated_lt h _, zero_notMem_truncated size _⟩
  · rintro ⟨hlength, hzero⟩
    rw [truncated, cString_eq_self hzero]
    exact List.take_of_length_le (Nat.le_sub_one_of_lt hlength)

theorem text_readStr (array : CharArray size) (h : 0 < size)
    (source : Option Bytes) :
    (array.readStr source).text = truncated size source := by
  cases source with
  | none => exact text_zeroed size
  | some source =>
      exact array.text_overwrite (zero_notMem_truncated size source)
        (length_truncated_lt h source)

theorem zero_mem_clear (array : CharArray size) (h : 0 < size) :
    (0 : UInt8) ∈ array.clear.bytes := by
  obtain ⟨rest, hbytes⟩ := @bytes_overwrite size array [] h
  rw [clear, show [(0 : UInt8)] = [] ++ [0] from rfl, hbytes]
  exact List.mem_cons_self

/-- The helpers leave a C string in the array. -/
theorem zero_mem_readStr (array : CharArray size) (h : 0 < size)
    (source : Option Bytes) : (0 : UInt8) ∈ (array.readStr source).bytes := by
  cases source with
  | none => exact List.mem_replicate.mpr ⟨Nat.ne_of_gt h, rfl⟩
  | some source =>
      obtain ⟨rest, hbytes⟩ := array.bytes_overwrite (length_truncated_lt h source)
      rw [truncated] at hbytes
      rw [readStr, hbytes]
      exact List.mem_append_right _ List.mem_cons_self

end CharArray

end TinyBpfLog.Foundation
