import TinyBpfLog.Runtime.FormatString

/-!
# Micro code

The decompressor splits a format into fragments of at most one specifier each,
which it finds with a regular expression, and notes of each what argument it
takes.  On formats that are made of tokens this agrees with what the logging side
has found, and the fragments put together are the format.
-/

namespace TinyBpfLog.Runtime

open Foundation
open Format (Amount Directive Token)

/-! ## The types of arguments -/

inductive FormatType where
  | none
  | unsignedChar
  | unsignedShortInt
  | unsignedInt
  | unsignedLongInt
  | unsignedLongLongInt
  | uintmaxT
  | sizeT
  | wintT
  | signedChar
  | shortInt
  | int
  | longInt
  | longLongInt
  | intmaxT
  | ptrdiffT
  | double
  | longDouble
  | constVoidPtr
  | constCharPtr
  | constWcharPtr
  deriving DecidableEq, Repr

/-- The first character is `c`. -/
def startsWith (length : Bytes) (c : UInt8) : Bool :=
  length.head? = some c

/-- `none` is the result `MAX_FORMAT_TYPE`. -/
def getFormatType (length : Bytes) (specifier : UInt8) : Option FormatType :=
  if specifier = 100 ∨ specifier = 105 then
    if length = [] then some .int
    else if length.length = 2 ∧ startsWith length 104 then some .signedChar
    else if length.length = 2 ∧ startsWith length 108 then some .longLongInt
    else if startsWith length 104 then some .shortInt
    else if startsWith length 108 then some .longInt
    else if startsWith length 106 then some .intmaxT
    else if startsWith length 122 then some .sizeT
    else if startsWith length 116 then some .ptrdiffT
    else none
  else if specifier = 117 ∨ specifier = 111 ∨ specifier = 120 ∨ specifier = 88 then
    if length = [] then some .unsignedInt
    else if length.length = 2 ∧ startsWith length 104 then some .unsignedChar
    else if length.length = 2 ∧ startsWith length 108 then some .unsignedLongLongInt
    else if startsWith length 104 then some .unsignedShortInt
    else if startsWith length 108 then some .unsignedLongInt
    else if startsWith length 106 then some .uintmaxT
    else if startsWith length 122 then some .sizeT
    else if startsWith length 116 then some .ptrdiffT
    else none
  else if specifier = 115 then
    if length = [] then some .constCharPtr
    else if startsWith length 108 then some .constWcharPtr
    else none
  else if specifier = 112 then
    if length = [] then some .constVoidPtr else none
  else if specifier ∈ ([102, 70, 101, 69, 103, 71, 97, 65] : Bytes) then
    if length = [76] then some .longDouble else some .double
  else if specifier = 99 then
    if length = [] then some .int
    else if startsWith length 108 then some .wintT
    else none
  else none

/-! ## The regular expression -/

/-- `hh h l ll j z Z t L`, and no length at all, in the order of the expression. -/
def lengthAlternatives : List Bytes :=
  [[104, 104], [104], [108], [108, 108], [106], [122], [90], [116], [76], []]

/-- `d i u o x X f F e E g G a A c s p n` -/
def regexSpecifiers : Bytes :=
  [100, 105, 117, 111, 120, 88, 102, 70, 101, 69, 103, 71, 97, 65, 99, 115, 112, 110]

/-- The groups of a match that are looked at, and what follows the match. -/
structure Match where
  width : Bytes
  precision : Bytes
  length : Bytes
  specifier : UInt8
  suffix : Bytes
  deriving DecidableEq, Repr

/-- `[\d]+|\*`, or nothing. -/
def matchAmount (fmt : Bytes) : Bytes × Bytes :=
  if fmt.head? = some 42 then ([42], fmt.drop 1)
  else (fmt.takeWhile isDigit, fmt.dropWhile isDigit)

/-- The second group of `(\.(\d+|\*))?`. -/
def matchPrecision (fmt : Bytes) : Bytes × Bytes :=
  if fmt.head? = some 46 ∧ (matchAmount (fmt.drop 1)).1 ≠ [] then
    matchAmount (fmt.drop 1)
  else ([], fmt)

/-- A length is taken if a specifier follows it. -/
def matchLength (fmt length : Bytes) : Option (Bytes × UInt8 × Bytes) :=
  if length.isPrefixOf fmt then
    match fmt.drop length.length with
    | [] => none
    | c :: suffix => if c ∈ regexSpecifiers then some (length, c, suffix) else none
  else none

/--
The match at the start.  Only the lengths need to be tried one after the other:
what stops the other groups cannot be matched by what follows them.
-/
def regexSearch (fmt : Bytes) : Option Match :=
  match fmt with
  | 37 :: fmt =>
      let width := matchAmount (fmt.dropWhile isFlag)
      let precision := matchPrecision width.2
      (lengthAlternatives.findSome? (matchLength precision.2)).map
        fun (length, specifier, suffix) =>
          ⟨width.1, precision.1, length, specifier, suffix⟩
  | _ => none

theorem matchAmount_length_le (fmt : Bytes) :
    (matchAmount fmt).2.length ≤ fmt.length := by
  rw [matchAmount]
  split
  · exact (List.drop_suffix _ _).length_le
  · exact length_dropWhile_le _ _

theorem matchPrecision_length_le (fmt : Bytes) :
    (matchPrecision fmt).2.length ≤ fmt.length := by
  rw [matchPrecision]
  split
  · exact (matchAmount_length_le _).trans (List.drop_suffix _ _).length_le
  · exact Nat.le_refl _

theorem matchLength_length_lt {fmt length found suffix : Bytes} {c : UInt8}
    (h : matchLength fmt length = some (found, c, suffix)) :
    suffix.length < fmt.length := by
  rw [matchLength] at h
  split at h
  · split at h
    · cases h
    · next first rest hdrop =>
        have hlength := congrArg List.length hdrop
        rw [List.length_drop, List.length_cons] at hlength
        split at h
        · cases h
          omega
        · cases h
  · cases h

theorem regexSearch_length_lt {fmt : Bytes} {found : Match}
    (h : regexSearch fmt = some found) : found.suffix.length < fmt.length := by
  rw [regexSearch.eq_def] at h
  split at h
  · next fmt =>
      obtain ⟨⟨length, specifier, suffix⟩, hending, rfl⟩ := Option.map_eq_some_iff.mp h
      obtain ⟨_, _, hlength⟩ := List.exists_of_findSome?_eq_some hending
      have hsuffix := matchLength_length_lt hlength
      have hflags := length_dropWhile_le isFlag fmt
      have hwidth := matchAmount_length_le (fmt.dropWhile isFlag)
      have hprecision := matchPrecision_length_le (matchAmount (fmt.dropWhile isFlag)).2
      simp only [List.length_cons]
      omega
  · cases h

/-! ## Fragments -/

structure PrintFragment where
  argType : FormatType
  hasDynamicWidth : Bool
  hasDynamicPrecision : Bool
  formatFragment : Bytes
  deriving DecidableEq, Repr

/-- The two counts have eight bits. -/
structure FormatMetadata where
  numNibbles : Nat
  numPrintFragments : Nat
  logLevel : UInt8
  lineNumber : UInt32
  filename : Bytes
  fragments : List PrintFragment
  deriving DecidableEq, Repr

/-- The nibbles that a specifier needs. -/
def Match.nibbles (found : Match) : Nat :=
  (if found.specifier ≠ 115 then 1 else 0) +
    (if startsWith found.width 42 then 1 else 0) +
    (if startsWith found.precision 42 then 1 else 0)

def FormatMetadata.add (fm : FormatMetadata) (fragment : PrintFragment)
    (nibbles : Nat) : FormatMetadata :=
  { fm with
    numNibbles := (fm.numNibbles + nibbles) % 256
    numPrintFragments := (fm.numPrintFragments + 1) % 256
    fragments := fm.fragments ++ [fragment] }

/--
The loop of `createMicroCode`: `pending` is read and not yet in a fragment, and
what is left of it at the end comes back.
-/
def microCodeFrom (fm : FormatMetadata) (consecutivePercents : Nat)
    (pending rest : Bytes) : Option (FormatMetadata × Bytes) :=
  match rest with
  | [] => some (fm, pending)
  | c :: after =>
      if c = 92 then
        microCodeFrom fm consecutivePercents (pending ++ c :: after.take 1) (after.drop 1)
      else if c ≠ 37 then microCodeFrom fm 0 (pending ++ [c]) after
      else if (consecutivePercents + 1) % 2 = 0 then
        microCodeFrom fm (consecutivePercents + 1) (pending ++ [c]) after
      else
        match _hmatch : regexSearch (c :: after) with
        | none => microCodeFrom fm (consecutivePercents + 1) (pending ++ [c]) after
        | some found =>
            match getFormatType found.length found.specifier with
            | none => none
            | some type =>
                let matched := (c :: after).take ((c :: after).length - found.suffix.length)
                microCodeFrom
                  (fm.add
                    { argType := type
                      hasDynamicWidth := startsWith found.width 42
                      hasDynamicPrecision := startsWith found.precision 42
                      formatFragment := pending ++ matched }
                    found.nibbles)
                  0 [] found.suffix
termination_by rest.length
decreasing_by
  · simp only [List.length_drop, List.length_cons]
    omega
  · exact Nat.lt_succ_self _
  · exact Nat.lt_succ_self _
  · exact Nat.lt_succ_self _
  · exact regexSearch_length_lt _hmatch

/-- The rest of the format goes to the last fragment. -/
def extendLast (trailing : Bytes) : List PrintFragment → List PrintFragment
  | [] => []
  | [fragment] =>
      [{ fragment with formatFragment := fragment.formatFragment ++ trailing }]
  | fragment :: fragments => fragment :: extendLast trailing fragments

/--
The strings are read up to their NUL.  The lengths of the fragments, which have
sixteen bits, are left out: a dictionary holds no format that they are too small for.
-/
def createMicroCode (formatString filename : Bytes) (linenum : UInt32)
    (severity : UInt8) : Option FormatMetadata :=
  let formatString := cString formatString
  (microCodeFrom ⟨0, 0, severity, linenum, cString filename, []⟩ 0 [] formatString).map
    fun (fm, trailing) =>
      match fm.fragments with
      | [] =>
          { fm with
            numPrintFragments := 1
            fragments := [⟨.none, false, false, formatString⟩] }
      | fragments => { fm with fragments := extendLast trailing fragments }

/-! ## Formats made of tokens -/

section Regex

variable {dir : Directive}

theorem matchAmount_text {amount : Option Amount} {rest : Bytes}
    (h : ∀ a, amount = some a → a.WellFormed)
    (hrest : ∀ byte, rest.head? = some byte → ¬ isDigit byte ∧ byte ≠ 42) :
    matchAmount (Format.widthText amount ++ rest) = (Format.widthText amount, rest) := by
  have hstop : ∀ byte, rest.head? = some byte → ¬ Format.isDigit byte :=
    fun byte hbyte => (hrest byte hbyte).1
  cases amount with
  | none =>
      have hnone := @Format.takeWhile_append_stop _ [] _ (by simp) hstop
      rw [List.nil_append, ← isDigit_eq] at hnone
      rw [Format.widthText, List.nil_append, matchAmount, if_neg, hnone.1, hnone.2]
      exact fun hstar => (hrest 42 hstar).2 rfl
  | some amount =>
      cases amount with
      | star => rfl
      | digits text =>
          obtain ⟨hne, hdigits⟩ := h _ rfl
          obtain ⟨htake, hdrop⟩ := Format.takeWhile_append_stop hdigits hstop
          rw [← isDigit_eq] at htake hdrop
          rw [Format.widthText, Format.Amount.text, matchAmount, if_neg, htake, hdrop]
          intro hstar
          exact charAt_digits hne hdigits rest (by rw [charAt, hstar]; rfl)

theorem widthText_ne_nil {amount : Amount} (h : amount.WellFormed) :
    Format.widthText (some amount) ≠ [] := by
  cases amount with
  | star => exact List.cons_ne_nil _ _
  | digits text => exact h.1

theorem matchPrecision_text (h : dir.WellFormed) (rest : Bytes) :
    matchPrecision (Format.precisionText dir.precision ++ (dir.ending ++ rest)) =
      (Format.widthText dir.precision, dir.ending ++ rest) := by
  have hamount := @matchAmount_text dir.precision (dir.ending ++ rest) h.precision
    fun byte hbyte => by
      obtain ⟨hdigit, hstar, -⟩ := Format.stops byte (h.head_ending rest hbyte)
      exact ⟨hdigit, hstar⟩
  cases hprecision : dir.precision with
  | none =>
      rw [Format.precisionText, Format.widthText, List.nil_append, matchPrecision, if_neg]
      rintro ⟨hpoint, -⟩
      exact (Format.stops 46 (h.head_ending rest hpoint)).2.2.1 rfl
  | some amount =>
      rw [hprecision, Format.widthText] at hamount
      have hne := widthText_ne_nil (h.precision _ hprecision)
      rw [Format.widthText] at hne
      rw [Format.precisionText, List.cons_append, matchPrecision, List.drop_succ_cons,
        List.drop_zero, hamount, if_pos ⟨rfl, hne⟩, Format.widthText]

theorem specifier_stops : ∀ c ∈ Format.specifiers, c ∈ regexSpecifiers ∧
    ∀ byte ∈ ([104, 108, 106, 122, 90, 116, 76] : Bytes), byte ≠ c := by
  decide +kernel

theorem findSome_matchLength (h : dir.WellFormed) (rest : Bytes) :
    lengthAlternatives.findSome? (matchLength (dir.ending ++ rest)) =
      some (dir.length, dir.specifier, rest) := by
  obtain ⟨hspecifier, hne⟩ := specifier_stops _ h.specifier
  simp only [List.mem_cons, List.not_mem_nil, or_false, forall_eq_or_imp, forall_eq] at hne
  obtain ⟨h104, h108, h106, h122, h90, h116, h76⟩ := hne
  have hlength := h.length
  simp only [Format.lengths, List.mem_cons, List.not_mem_nil, or_false] at hlength
  rw [Format.Directive.ending, List.append_assoc, List.singleton_append]
  -- the first `l` of `ll` is passed over, as no specifier follows it
  have hll : (108 : UInt8) ∉ regexSpecifiers := by decide
  rcases hlength with heq | heq | heq | heq | heq | heq | heq | heq | heq
  all_goals
    rw [heq]
    simp [lengthAlternatives, matchLength, List.isPrefixOf, hspecifier, hll, h104, h108,
      h106, h122, h90, h116, h76]

theorem regexSearch_body (h : dir.WellFormed) (rest : Bytes) :
    regexSearch (37 :: (dir.body ++ rest)) =
      some ⟨Format.widthText dir.width, Format.widthText dir.precision, dir.length,
        dir.specifier, rest⟩ := by
  have hflags := (h.take_flags rest).2
  rw [← isFlag_eq] at hflags
  have hwidth := @matchAmount_text dir.width
    (Format.precisionText dir.precision ++ (dir.ending ++ rest))
    (fun amount hamount => (h.width amount hamount).1) fun byte hbyte => by
      obtain ⟨hdigit, hstar, -⟩ := h.head_precision rest hbyte
      exact ⟨hdigit, hstar⟩
  simp only [regexSearch, hflags, hwidth, matchPrecision_text h,
    findSome_matchLength h, Option.map_some]

theorem regexSearch_percent (rest : Bytes) : regexSearch (37 :: 37 :: rest) = none := by
  simp [regexSearch, isFlag, matchAmount, isDigit, matchPrecision, lengthAlternatives,
    matchLength, List.isPrefixOf, regexSpecifiers]

end Regex

/-- The tokens up to each directive, and those behind the last one. -/
def chunks (pending : List Token) : List Token → List (List Token × Directive) × List Token
  | [] => ([], pending)
  | .directive dir :: tokens =>
      ((pending, dir) :: (chunks [] tokens).1, (chunks [] tokens).2)
  | token :: tokens => chunks (pending ++ [token]) tokens

def fragmentOf (chunk : List Token × Directive) : PrintFragment where
  argType := (getFormatType chunk.2.length chunk.2.specifier).getD .none
  hasDynamicWidth := chunk.2.width = some .star
  hasDynamicPrecision := chunk.2.precision = some .star
  formatFragment := Format.text (chunk.1 ++ [.directive chunk.2])

def directiveNibbles (dir : Directive) : Nat :=
  (directiveParams dir).countP fun t => !t.isString

/--
The token is well formed and stands for no backslash and no NUL, and its argument, if
it takes one, has a type that `getFormatType` knows.
-/
structure Plain (token : Token) : Prop where
  wellFormed : token.WellFormed
  no_backslash : token ≠ .literal 92
  no_nul : token ≠ .literal 0
  supported : ∀ dir, token = .directive dir →
    (getFormatType dir.length dir.specifier).isSome

/-- The last of the conditions. -/
def Supported : Token → Bool
  | .directive dir => (getFormatType dir.length dir.specifier).isSome
  | _ => true

instance : DecidablePred Plain := fun token =>
  decidable_of_iff
    (token.WellFormed ∧ token ≠ .literal 92 ∧ token ≠ .literal 0 ∧ Supported token)
    ⟨fun ⟨hwellFormed, hbackslash, hnul, hsupported⟩ =>
        ⟨hwellFormed, hbackslash, hnul, fun dir heq => by
          rw [heq] at hsupported
          exact hsupported⟩,
      fun h => ⟨h.wellFormed, h.no_backslash, h.no_nul, by
        cases token with
        | literal byte => rfl
        | percent => rfl
        | directive dir => exact h.supported dir rfl⟩⟩

theorem zero_notMem_text {tokens : List Token} (h : ∀ token ∈ tokens, Plain token) :
    (0 : UInt8) ∉ Format.text tokens :=
  Format.zero_notMem_text (fun token hmem => (h token hmem).wellFormed)
    fun hmem => (h _ hmem).no_nul rfl

theorem startsWith_widthText {amount : Option Amount}
    (h : ∀ a, amount = some a → a.WellFormed) :
    startsWith (Format.widthText amount) 42 = decide (amount = some .star) := by
  cases amount with
  | none => rfl
  | some amount =>
      cases amount with
      | star => rfl
      | digits text =>
          obtain ⟨hne, hdigits⟩ := h _ rfl
          obtain ⟨first, text, rfl⟩ := List.exists_cons_of_ne_nil hne
          have hfirst : first ≠ 42 := by
            rintro rfl
            exact absurd (hdigits 42 List.mem_cons_self) (by decide)
          simp [Format.widthText, Format.Amount.text, startsWith, hfirst]

theorem nibbles_body {dir : Directive} (h : dir.WellFormed) (rest : Bytes) :
    Match.nibbles ⟨Format.widthText dir.width, Format.widthText dir.precision,
      dir.length, dir.specifier, rest⟩ = directiveNibbles dir := by
  rw [Match.nibbles, directiveNibbles, directiveParams,
    startsWith_widthText fun amount hamount => (h.width amount hamount).1,
    startsWith_widthText h.precision]
  simp only [List.countP_append, List.countP_singleton, isString_valueType]
  by_cases hwidth : dir.width = some .star <;>
    by_cases hprecision : dir.precision = some .star <;>
    by_cases hstring : dir.specifier = 115 <;>
    simp [hwidth, hprecision, hstring, ParamType.isString]

/-- A `%` that is not the second of two. -/
theorem microCodeFrom_percent (fm : FormatMetadata) {consecutivePercents : Nat}
    (hodd : (consecutivePercents + 1) % 2 ≠ 0) (pending after : Bytes) :
    microCodeFrom fm consecutivePercents pending (37 :: after) =
      match regexSearch (37 :: after) with
      | none => microCodeFrom fm (consecutivePercents + 1) (pending ++ [37]) after
      | some found =>
          match getFormatType found.length found.specifier with
          | none => none
          | some type =>
              microCodeFrom
                (fm.add
                  { argType := type
                    hasDynamicWidth := startsWith found.width 42
                    hasDynamicPrecision := startsWith found.precision 42
                    formatFragment := pending ++
                      (37 :: after).take ((37 :: after).length - found.suffix.length) }
                  found.nibbles)
                0 [] found.suffix := by
  rw [microCodeFrom, if_neg (by decide), if_neg (by simp), if_neg hodd]
  split <;> simp [*]

theorem microCodeFrom_text {tokens : List Token} (h : ∀ token ∈ tokens, Plain token)
    (fm : FormatMetadata) {consecutivePercents : Nat} (heven : consecutivePercents % 2 = 0)
    (pending : List Token) :
    microCodeFrom fm consecutivePercents (Format.text pending) (Format.text tokens) =
      some ((chunks pending tokens).1.foldl
          (fun fm chunk => fm.add (fragmentOf chunk) (directiveNibbles chunk.2)) fm,
        Format.text (chunks pending tokens).2) := by
  induction tokens generalizing fm consecutivePercents pending with
  | nil => rw [Format.text_nil, microCodeFrom]; rfl
  | cons token tokens ih =>
      have htoken := h token List.mem_cons_self
      replace ih := @ih fun later hmem => h later (List.mem_cons_of_mem _ hmem)
      have hpending : ∀ byte, Format.text pending ++ [byte] =
          Format.text (pending ++ [.literal byte]) := fun byte => by
        rw [Format.text_append]; rfl
      rw [Format.text_cons]
      cases token with
      | literal byte =>
          have hpercent : byte ≠ 37 := htoken.wellFormed
          have hbackslash : byte ≠ 92 := fun heq => htoken.no_backslash (heq ▸ rfl)
          rw [Format.Token.text, List.singleton_append, microCodeFrom,
            if_neg hbackslash, if_pos hpercent, hpending, ih _ (by rfl)]
          rfl
      | percent =>
          have htwice : Format.text pending ++ [37] ++ [37] =
              Format.text (pending ++ [.percent]) := by
            rw [Format.text_append, List.append_assoc]; rfl
          rw [Format.Token.text, List.cons_append, List.singleton_append,
            microCodeFrom_percent fm (by omega), regexSearch_percent]
          dsimp only
          rw [microCodeFrom, if_neg (by decide), if_neg (by simp), if_pos (by omega),
            htwice, ih _ (by omega)]
          rfl
      | directive dir =>
          have hwellFormed : dir.WellFormed := htoken.wellFormed
          obtain ⟨type, htype⟩ :=
            Option.isSome_iff_exists.mp (htoken.supported dir rfl)
          have hmatched : (37 :: (dir.body ++ Format.text tokens)).take
              ((37 :: (dir.body ++ Format.text tokens)).length -
                (Format.text tokens).length) = 37 :: dir.body := by
            rw [← List.cons_append, List.length_append, Nat.add_sub_cancel,
              List.take_left]
          rw [Format.Token.text, List.cons_append, microCodeFrom_percent fm (by omega),
            regexSearch_body hwellFormed]
          dsimp only
          rw [htype, hmatched, nibbles_body hwellFormed]
          dsimp only
          rw [← Format.text_nil, ih _ (by rfl), chunks]
          have hfragment : fragmentOf (pending, dir) =
              { argType := type
                hasDynamicWidth := startsWith (Format.widthText dir.width) 42
                hasDynamicPrecision := startsWith (Format.widthText dir.precision) 42
                formatFragment := Format.text pending ++ 37 :: dir.body } := by
            rw [fragmentOf, Format.text_append, htype,
              startsWith_widthText fun amount hamount =>
                (hwellFormed.width amount hamount).1,
              startsWith_widthText hwellFormed.precision]
            simp [Format.Token.text]
          rw [List.foldl_cons, hfragment]

theorem foldl_add {fm : FormatMetadata} (hnibbles : fm.numNibbles < 256)
    (hfragments : fm.numPrintFragments < 256) (cs : List (List Token × Directive)) :
    cs.foldl (fun fm chunk => fm.add (fragmentOf chunk) (directiveNibbles chunk.2)) fm =
      { fm with
        numNibbles := (fm.numNibbles + (cs.flatMap fun chunk =>
          directiveParams chunk.2).countP fun t => !t.isString) % 256
        numPrintFragments := (fm.numPrintFragments + cs.length) % 256
        fragments := fm.fragments ++ cs.map fragmentOf } := by
  induction cs generalizing fm with
  | nil =>
      simp [Nat.mod_eq_of_lt hnibbles, Nat.mod_eq_of_lt hfragments]
  | cons chunk cs ih =>
      rw [List.foldl_cons, ih (Nat.mod_lt _ (by decide)) (Nat.mod_lt _ (by decide))]
      simp only [FormatMetadata.add, List.flatMap_cons, List.countP_append,
        directiveNibbles, List.length_cons, List.map_cons, List.append_assoc,
        List.singleton_append, Nat.mod_add_mod]
      congr 2 <;> omega

theorem chunks_params (pending tokens : List Token) :
    ((chunks pending tokens).1.flatMap fun chunk => directiveParams chunk.2) =
      formatParams tokens := by
  induction tokens generalizing pending with
  | nil => rfl
  | cons token tokens ih =>
      cases token with
      | literal byte => exact ih _
      | percent => exact ih _
      | directive dir =>
          rw [chunks, List.flatMap_cons, ih]
          rfl

/-- The fragments of a format that is made of tokens. -/
def fragmentsOf (tokens : List Token) : List PrintFragment :=
  match (chunks [] tokens).1 with
  | [] => [⟨.none, false, false, Format.text tokens⟩]
  | chunk :: cs =>
      extendLast (Format.text (chunks [] tokens).2) ((chunk :: cs).map fragmentOf)

theorem length_extendLast (trailing : Bytes) (fragments : List PrintFragment) :
    (extendLast trailing fragments).length = fragments.length := by
  induction fragments using extendLast.induct with
  | case1 => rfl
  | case2 fragment => rfl
  | case3 fragment fragments hne ih =>
      rw [extendLast.eq_3 _ _ _ hne, List.length_cons, ih, List.length_cons]

/-- What the decompressor makes of a format that is made of tokens. -/
def metadataOf (tokens : List Token) (filename : Bytes) (linenum : UInt32)
    (severity : UInt8) : FormatMetadata where
  numNibbles := ((formatParams tokens).countP fun t => !t.isString) % 256
  numPrintFragments := (fragmentsOf tokens).length % 256
  logLevel := severity
  lineNumber := linenum
  filename := filename
  fragments := fragmentsOf tokens

theorem createMicroCode_text {tokens : List Token} (h : ∀ token ∈ tokens, Plain token)
    (filename : Bytes) (linenum : UInt32) (severity : UInt8) :
    createMicroCode (Format.text tokens) filename linenum severity =
      some (metadataOf tokens (cString filename) linenum severity) := by
  rw [metadataOf]
  have hloop := @microCodeFrom_text tokens h
    ⟨0, 0, severity, linenum, cString filename, []⟩ 0 rfl []
  rw [Format.text_nil, foldl_add (Nat.zero_lt_succ _) (Nat.zero_lt_succ _), chunks_params]
    at hloop
  rw [createMicroCode, cString_eq_self (zero_notMem_text h)]
  dsimp only
  rw [hloop, Option.map_some]
  cases hchunks : (chunks [] tokens).1 with
  | nil => simp [fragmentsOf, hchunks]
  | cons chunk cs =>
      have hlength := length_extendLast (Format.text (chunks [] tokens).2)
        ((chunk :: cs).map fragmentOf)
      simp [fragmentsOf, hchunks] at hlength ⊢
      rw [hlength]

def FormatType.isString (type : FormatType) : Bool :=
  type = .constCharPtr || type = .constWcharPtr

theorem getFormatType_isString : ∀ length ∈ Format.lengths,
    ∀ specifier ∈ Format.specifiers, ∀ type, getFormatType length specifier = some type →
      type ≠ .none ∧ type.isString = decide (specifier = 115) := by
  decide +kernel

end TinyBpfLog.Runtime
