import Wiring.Coercion
import Wiring.Proofs.Text

/-!
# Coercion — values that have the type, and strings that are read

`Value.Inhabits v ty` says that a value has a type: every value has `any`, null has the types that are
not primitive, a scalar has the type of its kind, and an object has the type of its class.

**Coercion makes values of the type** (`inhabits_of_coerce`) **and keeps those that have it**
(`coerce_of_inhabits`), so what was converted once is not changed by converting it again.

**Integers, truth values and characters are read back from their strings, and of other strings just
those are read that write one** (`string_coercion`): numerals of 64-bit integers and the two words in
any case, with blanks around them, and single characters, with none.
-/

namespace Wiring.Value

/-- The value has the type. -/
inductive Inhabits : Value → Ty → Prop where
  | any (v : Value) : Inhabits v .any
  | nullString : Inhabits .null .string
  | nullNamed (name : String) : Inhabits .null (.named name)
  | bool (b : Bool) : Inhabits (.bool b) .bool
  | int (i : Int64) : Inhabits (.int i) .int
  | decimal (d : Decimal) : Inhabits (.decimal d) .decimal
  | char (c : Char) : Inhabits (.char c) .char
  | string (s : String) : Inhabits (.string s) .string
  | object (o : Object) : Inhabits (.object o) (.named o.typeName)

variable {s : String} {ty : Ty} {v w : Value}

/-! ### Strings that are read -/

theorem inhabits_of_readInt (h : readInt s = .ok w) : w.Inhabits .int := by
  unfold readInt at h
  split at h
  · cases h
    exact .int _
  · cases h

theorem inhabits_of_readDecimal (h : readDecimal s = .ok w) : w.Inhabits .decimal := by
  unfold readDecimal at h
  split at h
  · cases h
    exact .decimal _
  · cases h

theorem inhabits_of_readBool (h : readBool s = .ok w) : w.Inhabits .bool := by
  unfold readBool at h
  dsimp only at h
  split at h
  · cases h
    exact .bool _
  · split at h
    · cases h
      exact .bool _
    · cases h

theorem inhabits_of_readChar (h : readChar s = .ok w) : w.Inhabits .char := by
  unfold readChar at h
  split at h
  · cases h
    exact .char _
  · cases h

/-! ### Coercion -/

theorem inhabits_of_null (primitive : ty.isPrimitive = false) : Inhabits .null ty := by
  cases ty with
  | any => exact .any _
  | string => exact .nullString
  | named name => exact .nullNamed name
  | bool | int | decimal | char => cases primitive

/-- **What a value is converted into has the type.** -/
theorem inhabits_of_coerce (h : v.coerce ty = .ok w) : w.Inhabits ty := by
  unfold coerce at h
  dsimp only at h
  split at h
  next any =>
    cases ty with
    | any => exact .any w
    | _ => cases any
  next =>
    split at h
    next null =>
      cases v with
      | null =>
          split at h
          next => cases h
          next primitive =>
            cases h
            exact inhabits_of_null (Bool.eq_false_iff.2 primitive)
      | _ => cases null
    next =>
      -- one case for each pair of a type and a kind that is converted into it
      split at h
      · cases h; exact .int _
      · exact inhabits_of_readInt h
      · cases h; exact .decimal _
      · cases h; exact .decimal _
      · exact inhabits_of_readDecimal h
      · cases h; exact .bool _
      · exact inhabits_of_readBool h
      · cases h; exact .char _
      · exact inhabits_of_readChar h
      · split at h
        · cases h; exact .string _
        · cases h
      · split at h
        next name =>
          cases h
          exact name ▸ .object _
        next => cases h
      · cases h

/-- **A value that has the type is converted into itself.** -/
theorem coerce_of_inhabits (h : v.Inhabits ty) : v.coerce ty = .ok v := by
  cases h with
  | object o => simp [coerce, Ty.isAny, isNull]
  | _ => rfl

/-! ### What strings write -/

theorem coerce_int_string (s : String) : (string s).coerce .int = readInt s := by
  simp [coerce, Ty.isAny, isNull]

theorem coerce_bool_string (s : String) : (string s).coerce .bool = readBool s := by
  simp [coerce, Ty.isAny, isNull]

theorem coerce_char_string (s : String) : (string s).coerce .char = readChar s := by
  simp [coerce, Ty.isAny, isNull]

theorem coerce_int_eq_ok : (string s).coerce .int = .ok w ↔
    ∃ i : Int64, w = .int i ∧ Text.Numeral (Text.trim s).toList i.toInt := by
  rw [coerce_int_string, readInt]
  simp only [← Text.readInteger_eq_ok]
  cases Text.readInteger (Text.trim s) with
  | error fault => simp
  | ok i => simp [eq_comm]

theorem coerce_bool_eq_ok : (string s).coerce .bool = .ok w ↔
    ∃ b : Bool, w = .bool b ∧ Text.AnyCase (Text.trim s).toList (toString b).toList := by
  have word (b : Bool) : String.ofList ((Text.trim s).toList.map Char.toLower) = toString b ↔
      Text.AnyCase (Text.trim s).toList (toString b).toList := by
    have letters : ∀ d ∈ (toString b).toList, 97 ≤ d.toNat ∧ d.toNat ≤ 122 := by
      cases b <;> simp [toString]
    rw [← Text.map_toLower_eq_iff letters, ← String.toList_inj, String.toList_ofList]
  rw [coerce_bool_string]
  constructor
  · intro h
    unfold readBool at h
    dsimp only at h
    split at h
    next isTrue =>
      cases h
      exact ⟨true, rfl, (word true).1 isTrue⟩
    next =>
      split at h
      next isFalse =>
        cases h
        exact ⟨false, rfl, (word false).1 isFalse⟩
      next => cases h
  · rintro ⟨b, rfl, written⟩
    unfold readBool
    dsimp only
    rw [(word b).2 written]
    cases b with
    | true => exact if_pos rfl
    | false =>
        have apart : toString false ≠ "true" := by decide
        rw [if_neg apart]
        exact if_pos rfl

theorem coerce_char_eq_ok : (string s).coerce .char = .ok w ↔
    ∃ c, w = .char c ∧ s.toList = [c] := by
  rw [coerce_char_string, readChar]
  split
  next c single => simp [single, eq_comm]
  next others =>
    constructor
    · exact nofun
    · rintro ⟨c, rfl, single⟩
      exact absurd single (others c)

/-- The text of an integer holds no blank, so all of it is read. -/
theorem coerce_int_toString (i : Int64) :
    (string (toString i.toInt)).coerce .int = .ok (int i) := by
  have numeral := Text.numeral_toString i.toInt
  have whole : Text.trim (toString i.toInt) = toString i.toInt := by
    rw [Text.trim, Text.trimmed_of_no_blank numeral.not_isBlank, String.ofList_toList]
  refine coerce_int_eq_ok.2 ⟨i, rfl, ?_⟩
  rwa [whole]

theorem coerce_bool_toString (b : Bool) : (string (toString b)).coerce .bool = .ok (bool b) := by
  have whole : Text.trim (toString b) = toString b := by
    cases b <;> decide +kernel
  refine coerce_bool_eq_ok.2 ⟨b, rfl, ?_⟩
  rw [whole]
  exact List.forall₂_same.2 fun _ _ => .inl rfl

/-- **Strings are read as what they write, and what is written is read back.** -/
theorem string_coercion :
    (∀ i : Int64, ∃ t, (int i).coerce .string = .ok t ∧ t.coerce .int = .ok (.int i)) ∧
    (∀ b : Bool, ∃ t, (bool b).coerce .string = .ok t ∧ t.coerce .bool = .ok (.bool b)) ∧
    (∀ c : Char, ∃ t, (char c).coerce .string = .ok t ∧ t.coerce .char = .ok (.char c)) ∧
    (∀ s w, (string s).coerce .int = .ok w ↔
      ∃ i : Int64, w = .int i ∧ Text.Numeral (Text.trim s).toList i.toInt) ∧
    (∀ s w, (string s).coerce .bool = .ok w ↔
      ∃ b : Bool, w = .bool b ∧ Text.AnyCase (Text.trim s).toList (toString b).toList) ∧
    (∀ s w, (string s).coerce .char = .ok w ↔ ∃ c, w = .char c ∧ s.toList = [c]) ∧
    ∀ s, Text.Trims s.toList (Text.trim s).toList := by
  refine ⟨fun i => ⟨_, rfl, coerce_int_toString i⟩, fun b => ?_, fun c => ⟨_, rfl, ?_⟩,
    fun s w => coerce_int_eq_ok, fun s w => coerce_bool_eq_ok, fun s w => coerce_char_eq_ok,
    fun s => ?_⟩
  · refine ⟨string (toString b), ?_, coerce_bool_toString b⟩
    cases b <;> rfl
  · exact coerce_char_eq_ok.2 ⟨c, rfl, String.toList_singleton c⟩
  · rw [Text.trim, String.toList_ofList]
    exact Text.trims_trimmed s.toList

end Wiring.Value
