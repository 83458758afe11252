import TinyBpfLog.Foundation.Format

/-!
# Format strings

The format of a log invocation is read twice.  `getParamInfo` and its callers
read it where the program is compiled, to tell how each argument is stored, and
`createMicroCode` reads it again where the log is decompressed, with a regular
expression, to tell how each argument is fetched and printed.
-/

namespace TinyBpfLog.Runtime

open Foundation
open Format (Amount Directive Token)

/-! ## The parameters of a format -/

inductive ParamType where
  | invalid
  | dynamicWidth
  | dynamicPrecision
  | nonString
  | stringWithDynamicPrecision
  | stringWithNoPrecision
  -- a string with this precision
  | string (precision : Nat)
  deriving DecidableEq, Repr

/-- `paramType > ParamType::NON_STRING` -/
def ParamType.isString : ParamType → Bool
  | .stringWithDynamicPrecision => true
  | .stringWithNoPrecision => true
  | .string _ => true
  | _ => false

/-- Those of `d i u o x X f F e E g G a A c p % s n`. -/
def terminals : Bytes :=
  [100, 105, 117, 111, 120, 88, 102, 70, 101, 69, 103, 71, 97, 65, 99, 112, 37, 115, 110]

def isTerminal (c : UInt8) : Bool :=
  c ∈ terminals

def isFlag (c : UInt8) : Bool :=
  c = 45 || c = 43 || c = 32 || c = 35 || c = 48

def isLength (c : UInt8) : Bool :=
  c = 104 || c = 108 || c = 106 || c = 122 || c = 116 || c = 76

def isDigit (c : UInt8) : Bool :=
  48 ≤ c && c ≤ 57

/-- `fmt[pos]`, which is the NUL behind the last character. -/
def charAt (fmt : Bytes) : UInt8 :=
  fmt.head?.getD 0

/-- What a specifier comes to: the parameter asked for, or how many are still ahead. -/
inductive Scan where
  | found (paramType : ParamType)
  | next (paramNum : Nat) (fmt : Bytes)
  deriving DecidableEq, Repr

def consumeTerminal (paramNum : Nat) (stringType : ParamType) (fmt : Bytes) :
    Except String Scan :=
  let fmt := fmt.dropWhile isLength
  if ¬ isTerminal (charAt fmt) then .error "Unrecognized format specifier after %"
  else if charAt fmt = 110 then .error "%n specifiers are not support in NanoLog!"
  else if paramNum ≠ 0 then .ok (.next (paramNum - 1) (fmt.drop 1))
  else if charAt fmt ≠ 115 then .ok (.found .nonString)
  else .ok (.found stringType)

def consumePrecision (paramNum : Nat) (fmt : Bytes) : Except String Scan :=
  if charAt fmt = 46 then
    let fmt := fmt.drop 1
    if charAt fmt = 42 then
      if paramNum = 0 then .ok (.found .dynamicPrecision)
      else consumeTerminal (paramNum - 1) .stringWithDynamicPrecision (fmt.drop 1)
    else
      consumeTerminal paramNum (.string (Format.digitsValue (fmt.takeWhile isDigit)))
        (fmt.dropWhile isDigit)
  else consumeTerminal paramNum .stringWithNoPrecision fmt

/-- What follows a single `%`. -/
def consumeSpecifier (paramNum : Nat) (fmt : Bytes) : Except String Scan :=
  let fmt := fmt.dropWhile isFlag
  if charAt fmt = 42 then
    if paramNum = 0 then .ok (.found .dynamicWidth)
    else consumePrecision (paramNum - 1) (fmt.drop 1)
  else consumePrecision paramNum (fmt.dropWhile isDigit)

theorem length_dropWhile_le (p : UInt8 → Bool) (fmt : Bytes) :
    (fmt.dropWhile p).length ≤ fmt.length :=
  (List.dropWhile_suffix p).length_le

theorem consumeTerminal_next {paramNum after : Nat} {stringType : ParamType}
    {fmt rest : Bytes} (h : consumeTerminal paramNum stringType fmt =
      .ok (.next after rest)) : rest.length ≤ fmt.length := by
  have hlength := length_dropWhile_le isLength fmt
  simp only [consumeTerminal] at h
  repeat' split at h
  all_goals cases h
  rw [List.length_drop]
  omega

theorem consumePrecision_next {paramNum after : Nat} {fmt rest : Bytes}
    (h : consumePrecision paramNum fmt = .ok (.next after rest)) :
    rest.length ≤ fmt.length := by
  have hdigits := length_dropWhile_le isDigit (fmt.drop 1)
  rw [List.length_drop] at hdigits
  simp only [consumePrecision] at h
  split at h
  · split at h
    · split at h
      · cases h
      · have hterminal := consumeTerminal_next h
        simp only [List.length_drop] at hterminal
        omega
    · have hterminal := consumeTerminal_next h
      omega
  · exact consumeTerminal_next h

theorem consumeSpecifier_next {paramNum after : Nat} {fmt rest : Bytes}
    (h : consumeSpecifier paramNum fmt = .ok (.next after rest)) :
    rest.length ≤ fmt.length := by
  have hflags := length_dropWhile_le isFlag fmt
  have hdigits := length_dropWhile_le isDigit (fmt.dropWhile isFlag)
  simp only [consumeSpecifier] at h
  split at h
  · split at h
    · cases h
    · have hprecision := consumePrecision_next h
      rw [List.length_drop] at hprecision
      omega
  · have hprecision := consumePrecision_next h
    omega

/-- The type of parameter `paramNum`, or what the compiler stops with. -/
def getParamInfo (fmt : Bytes) (paramNum : Nat) : Except String ParamType :=
  match fmt with
  | [] => .ok .invalid
  | c :: rest =>
      if c ≠ 37 then getParamInfo rest paramNum
      else if charAt rest = 37 then getParamInfo (rest.drop 1) paramNum
      else
        match _hscan : consumeSpecifier paramNum rest with
        | .error message => .error message
        | .ok (.found paramType) => .ok paramType
        | .ok (.next paramNum after) => getParamInfo after paramNum
termination_by fmt.length
decreasing_by
  · exact Nat.lt_succ_self _
  · simp only [List.length_drop, List.length_cons]
    omega
  · exact Nat.lt_succ_of_le (consumeSpecifier_next _hscan)

def analyzeFormatString (nParams : Nat) (fmt : Bytes) : Except String (List ParamType) :=
  (List.range nParams).mapM (getParamInfo fmt)

/-- A parameter takes a character, so that one of the first counts is the last. -/
def countFmtParamsFrom (fmt : Bytes) : Nat → Nat → Except String Nat
  | 0, count => .ok count
  | fuel + 1, count =>
      match getParamInfo fmt count with
      | .error message => .error message
      | .ok .invalid => .ok count
      | .ok _ => countFmtParamsFrom fmt fuel (count + 1)

def countFmtParams (fmt : Bytes) : Except String Nat :=
  countFmtParamsFrom fmt fmt.length 0

def getNumNibblesNeeded (fmt : Bytes) : Except String Nat :=
  match countFmtParams fmt with
  | .error message => .error message
  | .ok count =>
      (analyzeFormatString count fmt).map fun types =>
        types.countP fun t =>
          t = .nonString || t = .dynamicPrecision || t = .dynamicWidth

/-! ### Formats made of tokens -/

theorem isFlag_eq : isFlag = Format.isFlag := rfl

theorem isDigit_eq : isDigit = Format.isDigit := rfl

theorem isLength_eq : isLength = Format.isLength := by
  funext c
  simp [isLength, Format.isLength, Format.lengthBytes, Bool.or_assoc]

theorem isTerminal_of_mem : ∀ c ∈ Format.specifiers, isTerminal c ∧ c ≠ 110 := by
  decide +kernel

/-- The type of what a directive prints. -/
def valueType (dir : Directive) : ParamType :=
  if dir.specifier ≠ 115 then .nonString
  else
    match dir.precision with
    | none => .stringWithNoPrecision
    | some .star => .stringWithDynamicPrecision
    | some (.digits text) => .string (Format.digitsValue text)

theorem isString_valueType (dir : Directive) :
    (valueType dir).isString = decide (dir.specifier = 115) := by
  rw [valueType]
  repeat' split
  all_goals simp_all [ParamType.isString]

/-- The parameters of a directive, in the order of its arguments. -/
def directiveParams (dir : Directive) : List ParamType :=
  (if dir.width = some .star then [.dynamicWidth] else []) ++
    ((if dir.precision = some .star then [.dynamicPrecision] else []) ++ [valueType dir])

def tokenParams : Token → List ParamType
  | .directive dir => directiveParams dir
  | _ => []

def formatParams (tokens : List Token) : List ParamType :=
  tokens.flatMap tokenParams

/-- A scan over the parameters of `types`, and then over `rest`. -/
def scanOf (types : List ParamType) (paramNum : Nat) (rest : Bytes) : Scan :=
  match types[paramNum]? with
  | some paramType => .found paramType
  | none => .next (paramNum - types.length) rest

theorem charAt_ne {fmt : Bytes} {c : UInt8} (hc : c ≠ 0)
    (h : fmt.head? ≠ some c) : charAt fmt ≠ c := by
  cases fmt with
  | nil => exact Ne.symm hc
  | cons first fmt => simpa [charAt] using h

variable {dir : Directive}

theorem consumeTerminal_ending (h : dir.WellFormed) (paramNum : Nat)
    (stringType : ParamType) (rest : Bytes) :
    consumeTerminal paramNum stringType (dir.ending ++ rest) =
      .ok (scanOf [if dir.specifier ≠ 115 then .nonString else stringType]
        paramNum rest) := by
  obtain ⟨hterminal, hn⟩ := isTerminal_of_mem _ h.specifier
  have hdrop := (h.take_length rest).2
  rw [← isLength_eq] at hdrop
  simp only [consumeTerminal, hdrop, charAt, List.head?_cons, Option.getD_some,
    List.drop_succ_cons, List.drop_zero]
  rw [if_neg (not_not.mpr hterminal), if_neg hn]
  cases paramNum with
  | zero =>
      rw [if_neg (by simp)]
      by_cases hstring : dir.specifier = 115 <;> simp [hstring, scanOf]
  | succ paramNum => rw [if_pos (by simp)]; simp [scanOf]

theorem scanOf_cons_succ (t : ParamType) (types : List ParamType) (paramNum : Nat)
    (rest : Bytes) :
    scanOf (t :: types) (paramNum + 1) rest = scanOf types paramNum rest := by
  simp [scanOf]

theorem consumePrecision_point (paramNum : Nat) (fmt : Bytes) :
    consumePrecision paramNum (46 :: fmt) =
      if charAt fmt = 42 then
        if paramNum = 0 then .ok (.found .dynamicPrecision)
        else consumeTerminal (paramNum - 1) .stringWithDynamicPrecision (fmt.drop 1)
      else
        consumeTerminal paramNum
          (.string (Format.digitsValue (fmt.takeWhile isDigit)))
          (fmt.dropWhile isDigit) := rfl

/-- No digit is taken for a `*`. -/
theorem charAt_digits {text : Bytes} (hne : text ≠ [])
    (hdigits : ∀ byte ∈ text, Format.isDigit byte) (rest : Bytes) :
    charAt (text ++ rest) ≠ 42 := by
  obtain ⟨first, text, rfl⟩ := List.exists_cons_of_ne_nil hne
  intro hstar
  obtain rfl : first = 42 := hstar
  exact absurd (hdigits 42 List.mem_cons_self) (by decide)

theorem consumePrecision_text (h : dir.WellFormed) (paramNum : Nat) (rest : Bytes) :
    consumePrecision paramNum
        (Format.precisionText dir.precision ++ (dir.ending ++ rest)) =
      .ok (scanOf ((if dir.precision = some .star then [.dynamicPrecision] else []) ++
        [valueType dir]) paramNum rest) := by
  cases hprecision : dir.precision with
  | none =>
      have hpoint : charAt (dir.ending ++ rest) ≠ 46 := by
        refine charAt_ne (by decide) fun hhead => ?_
        exact (Format.stops 46 (h.head_ending rest hhead)).2.2.1 rfl
      rw [Format.precisionText, List.nil_append, consumePrecision, if_neg hpoint,
        consumeTerminal_ending h]
      simp [valueType, hprecision]
  | some amount =>
      rw [Format.precisionText, List.cons_append, consumePrecision_point]
      cases amount with
      | star =>
          rw [Format.Amount.text, List.singleton_append, if_pos (by rfl), if_pos rfl,
            List.singleton_append]
          cases paramNum with
          | zero => rfl
          | succ paramNum =>
              rw [if_neg (by simp), Nat.add_sub_cancel, List.drop_succ_cons,
                List.drop_zero, consumeTerminal_ending h, scanOf_cons_succ]
              simp [valueType, hprecision]
      | digits text =>
          obtain ⟨hne, hdigits⟩ := h.precision _ hprecision
          obtain ⟨htake, hdrop⟩ := Format.takeWhile_append_stop hdigits
            fun byte hbyte => (Format.stops byte (h.head_ending rest hbyte)).1
          rw [← isDigit_eq] at htake hdrop
          rw [Format.Amount.text, if_neg (charAt_digits hne hdigits _), htake, hdrop,
            consumeTerminal_ending h]
          simp [valueType, hprecision]

theorem consumeSpecifier_body (h : dir.WellFormed) (paramNum : Nat) (rest : Bytes) :
    consumeSpecifier paramNum (dir.body ++ rest) =
      .ok (scanOf (directiveParams dir) paramNum rest) := by
  have hflags := (h.take_flags rest).2
  rw [← isFlag_eq] at hflags
  rw [consumeSpecifier, hflags]
  have hstop : ∀ byte, (Format.precisionText dir.precision ++
      (dir.ending ++ rest)).head? = some byte → ¬ isDigit byte :=
    fun byte hbyte => (h.head_precision rest hbyte).1
  cases hwidth : dir.width with
  | none =>
      have hstar : charAt (Format.precisionText dir.precision ++
          (dir.ending ++ rest)) ≠ 42 := by
        refine charAt_ne (by decide) fun hhead => ?_
        exact (h.head_precision rest hhead).2.1 rfl
      have hnone := (@Format.takeWhile_append_stop _ [] _ (by simp) hstop).2
      rw [List.nil_append] at hnone
      rw [Format.widthText, List.nil_append, if_neg hstar, hnone,
        consumePrecision_text h]
      simp [directiveParams, hwidth]
  | some amount =>
      cases amount with
      | star =>
          rw [Format.widthText, Format.Amount.text, List.singleton_append,
            if_pos (by rfl), directiveParams, if_pos hwidth, List.singleton_append]
          cases paramNum with
          | zero => rfl
          | succ paramNum =>
              rw [if_neg (by simp), Nat.add_sub_cancel, List.drop_succ_cons,
                List.drop_zero, consumePrecision_text h, scanOf_cons_succ]
      | digits text =>
          obtain ⟨hne, hdigits⟩ := (h.width _ hwidth).1
          obtain ⟨-, hdrop⟩ := Format.takeWhile_append_stop hdigits hstop
          rw [← isDigit_eq] at hdrop
          rw [Format.widthText, Format.Amount.text, if_neg (charAt_digits hne hdigits _),
            hdrop, consumePrecision_text h]
          simp [directiveParams, hwidth]

theorem getParamInfo_specifier {rest : Bytes} (h : charAt rest ≠ 37) (paramNum : Nat) :
    getParamInfo (37 :: rest) paramNum =
      match consumeSpecifier paramNum rest with
      | .error message => .error message
      | .ok (.found paramType) => .ok paramType
      | .ok (.next paramNum after) => getParamInfo after paramNum := by
  rw [getParamInfo, if_neg (by simp), if_neg h]
  split <;> simp [*]

theorem getParamInfo_text {tokens : List Token}
    (h : ∀ token ∈ tokens, token.WellFormed) (paramNum : Nat) :
    getParamInfo (Format.text tokens) paramNum =
      .ok ((formatParams tokens)[paramNum]?.getD .invalid) := by
  induction tokens generalizing paramNum with
  | nil => rw [Format.text_nil, getParamInfo]; rfl
  | cons token tokens ih =>
      have htoken := h token List.mem_cons_self
      replace ih := ih fun later hmem => h later (List.mem_cons_of_mem _ hmem)
      rw [Format.text_cons]
      cases token with
      | literal byte =>
          have hne : byte ≠ 37 := htoken
          rw [Format.Token.text, List.singleton_append, getParamInfo, if_pos hne, ih]
          rfl
      | percent =>
          rw [Format.Token.text, List.cons_append, getParamInfo, if_neg (by simp),
            if_pos (by rfl), List.singleton_append, List.drop_succ_cons, List.drop_zero,
            ih]
          rfl
      | directive dir =>
          have hpercent : charAt (dir.body ++ Format.text tokens) ≠ 37 :=
            charAt_ne (by decide) (htoken.head_body _)
          have hparams : formatParams (.directive dir :: tokens) =
              directiveParams dir ++ formatParams tokens := rfl
          rw [Format.Token.text, List.cons_append, getParamInfo_specifier hpercent,
            consumeSpecifier_body htoken, scanOf, hparams]
          cases hget : (directiveParams dir)[paramNum]? with
          | some paramType =>
              have hlt := (List.getElem?_eq_some_iff.mp hget).1
              rw [List.getElem?_append_left hlt, hget]
              rfl
          | none =>
              have hle := List.getElem?_eq_none_iff.mp hget
              rw [List.getElem?_append_right hle]
              exact ih _

theorem valueType_ne_invalid (dir : Directive) : valueType dir ≠ .invalid := by
  rw [valueType]
  repeat' split
  all_goals nofun

theorem invalid_notMem_formatParams (tokens : List Token) :
    ParamType.invalid ∉ formatParams tokens := by
  intro hmem
  obtain ⟨token, -, hparam⟩ := List.mem_flatMap.mp hmem
  cases token with
  | literal byte => cases hparam
  | percent => cases hparam
  | directive dir =>
      rw [tokenParams, directiveParams] at hparam
      have hvalue := valueType_ne_invalid dir
      simp only [List.mem_append, List.mem_singleton] at hparam
      rcases hparam with hwidth | hprecision | hparam
      · split at hwidth <;> simp at hwidth
      · split at hprecision <;> simp at hprecision
      · exact hvalue hparam.symm

theorem length_directiveParams_le (dir : Directive) :
    (directiveParams dir).length ≤ dir.body.length := by
  have hwidth : (if dir.width = some .star then [ParamType.dynamicWidth] else []).length ≤
      (Format.widthText dir.width).length := by
    split
    · next hstar => rw [hstar]; exact Nat.le_refl _
    · exact Nat.zero_le _
  have hprecision :
      (if dir.precision = some .star then [ParamType.dynamicPrecision] else []).length ≤
        (Format.precisionText dir.precision).length := by
    split
    · next hstar => rw [hstar]; exact Nat.le_succ 1
    · exact Nat.zero_le _
  simp only [directiveParams, Format.Directive.body, List.length_append,
    List.length_singleton]
  omega

theorem length_formatParams_le (tokens : List Token) :
    (formatParams tokens).length ≤ (Format.text tokens).length := by
  induction tokens with
  | nil => exact Nat.le_refl _
  | cons token tokens ih =>
      have htoken : (tokenParams token).length ≤ token.text.length := by
        cases token with
        | literal byte => exact Nat.zero_le _
        | percent => exact Nat.zero_le _
        | directive dir => exact (length_directiveParams_le dir).trans (Nat.le_succ _)
      rw [formatParams, List.flatMap_cons, Format.text_cons, List.length_append,
        List.length_append]
      exact Nat.add_le_add htoken ih

/-- Each star and each directive has a parameter. -/
theorem length_formatParams (tokens : List Token) :
    (formatParams tokens).length = Format.arity tokens := by
  induction tokens with
  | nil => rfl
  | cons token tokens ih =>
      have htoken : (tokenParams token).length = token.arity := by
        cases token with
        | literal byte => rfl
        | percent => rfl
        | directive dir =>
            simp only [tokenParams, directiveParams, Format.Token.arity,
              Format.Directive.arity, Format.amountArity, List.length_append,
              List.length_singleton, apply_ite List.length, List.length_nil, Nat.add_assoc]
      rw [formatParams, List.flatMap_cons, List.length_append, htoken, ← formatParams, ih,
        Format.arity]

section Analysis

variable {tokens : List Token} (h : ∀ token ∈ tokens, token.WellFormed)

include h

theorem countFmtParamsFrom_text {fuel count : Nat}
    (hcount : count ≤ (formatParams tokens).length)
    (hfuel : (formatParams tokens).length ≤ count + fuel) :
    countFmtParamsFrom (Format.text tokens) fuel count =
      .ok (formatParams tokens).length := by
  induction fuel generalizing count with
  | zero => rw [countFmtParamsFrom, Nat.le_antisymm hcount hfuel]
  | succ fuel ih =>
      rw [countFmtParamsFrom, getParamInfo_text h]
      rcases Nat.lt_or_ge count (formatParams tokens).length with hlt | hge
      · have hvalid : (formatParams tokens)[count] ≠ .invalid := fun hinvalid =>
          invalid_notMem_formatParams tokens (hinvalid ▸ List.getElem_mem hlt)
        rw [List.getElem?_eq_getElem hlt, Option.getD_some]
        split
        · next heq => cases heq
        · next heq => exact absurd (Except.ok.inj heq) hvalid
        · exact ih hlt (by omega)
      · rw [List.getElem?_eq_none_iff.mpr hge]
        exact congrArg _ (Nat.le_antisymm hcount hge)

theorem countFmtParams_text :
    countFmtParams (Format.text tokens) = .ok (formatParams tokens).length :=
  countFmtParamsFrom_text h (Nat.zero_le _)
    ((length_formatParams_le tokens).trans (Nat.le_add_left _ _))

theorem analyzeFormatString_text :
    analyzeFormatString (formatParams tokens).length (Format.text tokens) =
      .ok (formatParams tokens) := by
  have hinfo : getParamInfo (Format.text tokens) = fun paramNum =>
      pure ((formatParams tokens)[paramNum]?.getD .invalid) :=
    funext (getParamInfo_text h)
  rw [analyzeFormatString, hinfo, List.mapM_pure]
  refine congrArg Except.ok (List.ext_getElem (by simp) fun i hi _ => ?_)
  rw [List.length_map, List.length_range] at hi
  simp [List.getElem?_eq_getElem hi]

theorem getNumNibblesNeeded_text :
    getNumNibblesNeeded (Format.text tokens) =
      .ok ((formatParams tokens).countP fun t => !t.isString) := by
  rw [getNumNibblesNeeded, countFmtParams_text h]
  dsimp only
  rw [analyzeFormatString_text h]
  refine congrArg Except.ok (List.countP_congr fun t ht => ?_)
  have hvalid : t ≠ .invalid := fun hinvalid =>
    invalid_notMem_formatParams tokens (hinvalid ▸ ht)
  cases t <;> simp_all [ParamType.isString]

end Analysis

end TinyBpfLog.Runtime
