import Mathlib.Data.List.Infix
import Wiring.Template

/-!
# Templates — reading and filling in

A template says which text it is written as (`Template.written`).  It is well formed when no literal
text holds the opening mark of a placeholder, and no key and no text after an unclosed mark holds
the closing brace.  **Every text is written by one well-formed template, the one it is read as**:
`written_scan` and `wellFormed_scan` say that reading gives one, `scan_written` that there is no
other.

**What a text evaluates to is told by its template** (`evaluate_written`): the text itself, the
value of its only placeholder, the text with the texts of all values put in, or the error of the
first placeholder that stops it.
-/

namespace Wiring.Template

/-- The text does not hold the opening mark of a placeholder. -/
def IsLiteral (text : List Char) : Prop :=
  ¬ ['$', '\x7b'] <:+: text

/-- The text of a template. -/
def written : Template → List Char
  | rest text => text
  | hole text key next => text ++ '$' :: '\x7b' :: (key ++ '\x7d' :: next.written)
  | unclosed text tail => text ++ '$' :: '\x7b' :: tail

/-- The template is taken apart at every placeholder. -/
def WellFormed : Template → Prop
  | rest text => IsLiteral text
  | hole text key next => IsLiteral text ∧ '\x7d' ∉ key ∧ next.WellFormed
  | unclosed text tail => IsLiteral text ∧ '\x7d' ∉ tail

/-- The keys of the placeholders, in order. -/
def keys : Template → List (List Char)
  | rest _ => []
  | hole _ key next => key :: next.keys
  | unclosed _ _ => []

/-- Every placeholder is closed. -/
def Closed : Template → Prop
  | rest _ => True
  | hole _ _ next => next.Closed
  | unclosed _ _ => False

/-- The text with a text in place of each placeholder. -/
def filled (put : List Char → String) : Template → String
  | rest text => String.ofList text
  | hole text key next => String.ofList text ++ put key ++ next.filled put
  | unclosed text _ => String.ofList text

/-- The template is one placeholder and nothing else, with a key that is literal text. -/
def Sole (template : Template) (key : List Char) : Prop :=
  template = hole [] key (rest []) ∧ IsLiteral key

instance (text : List Char) : Decidable (IsLiteral text) :=
  inferInstanceAs (Decidable (¬ _))

instance decidableWellFormed : (template : Template) → Decidable template.WellFormed
  | rest text => inferInstanceAs (Decidable (IsLiteral text))
  | hole text key next =>
    have := decidableWellFormed next
    inferInstanceAs (Decidable (IsLiteral text ∧ '\x7d' ∉ key ∧ next.WellFormed))
  | unclosed text tail => inferInstanceAs (Decidable (IsLiteral text ∧ '\x7d' ∉ tail))

variable {text : List Char} {c : Char}

/-! ### The opening mark -/

/-- A literal text goes on with a character unless the two make an opening mark. -/
theorem isLiteral_concat (h : IsLiteral text) (apart : ¬ (text.getLast? = some '$' ∧ c = '\x7b')) :
    IsLiteral (text ++ [c]) := by
  intro mark
  rcases List.infix_concat_iff.1 mark with mark | mark
  · obtain ⟨before, hbefore⟩ := mark
    have hsplit : (before ++ ['$']) ++ ['\x7b'] = text ++ [c] := by simpa using hbefore
    obtain ⟨rfl, hc⟩ := List.append_inj' hsplit rfl
    exact apart ⟨by simp, (List.singleton_inj.1 hc).symm⟩
  · exact h mark

theorem isLiteral_of_cons (h : IsLiteral (c :: text)) : IsLiteral text :=
  fun mark => h (mark.trans (List.suffix_cons c text).isInfix)

theorem opens_iff : ∀ cs : List Char, opens cs ↔ ['$', '\x7b'] <:+: cs
  | [] => by simp [opens]
  | c :: cs => by
      by_cases mark : ∃ rest, c :: cs = '$' :: '\x7b' :: rest
      · obtain ⟨rest, heq⟩ := mark
        rw [heq]
        exact ⟨fun _ => ⟨[], rest, rfl⟩, fun _ => rfl⟩
      · rw [opens, opens_iff cs, List.infix_cons_iff]
        · refine ⟨.inr, fun h => h.resolve_left ?_⟩
          rintro ⟨rest, heq⟩
          exact mark ⟨rest, heq.symm⟩
        · rintro rest rfl rfl
          exact mark ⟨rest, rfl⟩

/-! ### The template a text is read as -/

/-- Reading a text takes it apart and leaves nothing out. -/
theorem written_scan (text : List Char) (key : Option (List Char)) (cs : List Char) :
    (scan text key cs).written =
      match key with
      | none => text.reverse ++ cs
      | some key => text.reverse ++ '$' :: '\x7b' :: (key.reverse ++ cs) := by
  fun_induction scan text key cs with
  | case1 text => simp [written]
  | case2 text cs ih => simpa using ih
  | case3 text c cs _ ih => simpa using ih
  | case4 text key => simp [written]
  | case5 text key cs ih => simp [written, ih]
  | case6 text key c cs _ ih => simpa using ih

/-- A text is taken apart at every placeholder.  While the literal text is read, it does not make
an opening mark with the next character. -/
theorem wellFormed_scan (text : List Char) (key : Option (List Char)) (cs : List Char)
    (literal : IsLiteral text.reverse) (closes : ∀ k ∈ key, '\x7d' ∉ k.reverse)
    (apart : key = none → ¬ (text.head? = some '$' ∧ cs.head? = some '\x7b')) :
    (scan text key cs).WellFormed := by
  fun_induction scan text key cs with
  | case1 text => exact literal
  | case2 text cs ih => exact ih literal (by simp) (by simp)
  | case3 text c cs plain ih =>
      refine ih ?_ closes fun _ => ?_
      · rw [List.reverse_cons]
        refine isLiteral_concat literal fun mark => apart rfl ?_
        simpa using mark
      · rintro ⟨hc, hcs⟩
        obtain ⟨cs', rfl⟩ := List.head?_eq_some_iff.1 hcs
        exact plain cs' (Option.some.inj hc) rfl
  | case4 text key => exact ⟨literal, closes key rfl⟩
  | case5 text key cs ih =>
      exact ⟨literal, closes key rfl, ih (by simp [IsLiteral]) (by simp) (by simp)⟩
  | case6 text key c cs hc ih =>
      refine ih literal ?_ (by simp)
      simp only [Option.mem_some_iff, forall_eq', List.reverse_cons, List.mem_append,
        List.mem_singleton, not_or]
      exact ⟨closes key rfl, Ne.symm hc⟩

/-- A literal text is read up to the opening mark after it. -/
theorem scan_hole (text : List Char) : ∀ {more : List Char} (cs : List Char), IsLiteral more →
    scan text none (more ++ '$' :: '\x7b' :: cs) = scan (more.reverse ++ text) (some []) cs
  | [], cs, _ => by rw [List.nil_append, scan]; rfl
  | c :: more, cs, h => by
      have rest := scan_hole (c :: text) cs (isLiteral_of_cons h)
      rw [List.cons_append, scan, rest, List.reverse_cons, List.append_assoc]
      · rfl
      · -- the character after `c` is one of the literal text, or the dollar sign of the mark
        rintro cs' rfl mark
        cases more with
        | nil => cases mark
        | cons d more =>
            cases mark
            exact h ⟨[], more, rfl⟩

/-- A literal text at the end is read up to the end. -/
theorem scan_rest (text : List Char) : ∀ {more : List Char}, IsLiteral more →
    scan text none more = rest (text.reverse ++ more)
  | [], _ => by rw [scan, List.append_nil]
  | c :: more, h => by
      have rest := scan_rest (c :: text) (isLiteral_of_cons h)
      rw [scan, rest, List.reverse_cons, List.append_assoc]
      · rfl
      · rintro cs rfl rfl
        exact h ⟨[], cs, rfl⟩

/-- A key is read up to the closing brace. -/
theorem scan_key (text key : List Char) : ∀ {more : List Char} (cs : List Char), '\x7d' ∉ more →
    scan text (some key) (more ++ '\x7d' :: cs) =
      hole text.reverse (key.reverse ++ more) (scan [] none cs)
  | [], cs, _ => by rw [List.nil_append, scan, if_pos rfl, List.append_nil]
  | c :: more, cs, h => by
      obtain ⟨hc, hmore⟩ := List.ne_and_not_mem_of_not_mem_cons h
      rw [List.cons_append, scan, if_neg (Ne.symm hc), scan_key text (c :: key) cs hmore,
        List.reverse_cons, List.append_assoc]
      rfl

/-- A placeholder without a closing brace is read up to the end. -/
theorem scan_unclosed (text key : List Char) : ∀ {more : List Char}, '\x7d' ∉ more →
    scan text (some key) more = unclosed text.reverse (key.reverse ++ more)
  | [], _ => by rw [scan, List.append_nil]
  | c :: more, h => by
      obtain ⟨hc, hmore⟩ := List.ne_and_not_mem_of_not_mem_cons h
      rw [scan, if_neg (Ne.symm hc), scan_unclosed text (c :: key) hmore, List.reverse_cons,
        List.append_assoc]
      rfl

/-- A well-formed template is what its text is read as. -/
theorem scan_written : ∀ {template : Template}, template.WellFormed →
    scan [] none template.written = template
  | rest text, h => scan_rest [] h
  | hole text key next, ⟨literal, closes, wellFormed⟩ => by
      rw [written, scan_hole [] _ literal, scan_key _ _ _ closes, scan_written wellFormed]
      simp
  | unclosed text tail, ⟨literal, closes⟩ => by
      rw [written, scan_hole [] _ literal, scan_unclosed _ _ closes]
      simp

/-- Every text is the text of one well-formed template, the one it is read as. -/
theorem read_iff {s : String} {template : Template} :
    template.WellFormed ∧ template.written = s.toList ↔ read s = template := by
  constructor
  · rintro ⟨wellFormed, hwritten⟩
    rw [read, ← hwritten, scan_written wellFormed]
  · rintro rfl
    exact ⟨wellFormed_scan [] none s.toList (by simp [IsLiteral]) (by simp) (by simp),
      written_scan [] none s.toList⟩

/-! ### Filling in -/

variable {table : Table Value} {whole : String} {template : Template}

theorem lookUp_of_some {key : List Char} {v : Value}
    (known : table.get? (String.ofList key) = some v) : lookUp table whole key = .ok v := by
  rw [lookUp, known]

theorem lookUp_of_none {key : List Char} (unknown : table.get? (String.ofList key) = none) :
    lookUp table whole key = .error (unknownKey whole key) := by
  rw [lookUp, unknown]

/-- With a value for every key, the texts of the values are put in. -/
theorem fill_of_known (value : List Char → Value) : ∀ {template : Template}, template.Closed →
    (∀ key ∈ template.keys, table.get? (String.ofList key) = some (value key)) →
      fill table whole template = .ok (template.filled fun key => (value key).text)
  | rest text, _, _ => rfl
  | hole text key next, closed, known => by
      obtain ⟨hkey, hnext⟩ := List.forall_mem_cons.1 known
      have closed : next.Closed := closed
      rw [fill, lookUp_of_some hkey]
      dsimp only
      rw [fill_of_known value closed hnext, filled]
      exact congrArg Except.ok String.append_assoc.symm

/-- The first key without a value stops the filling, whatever comes after it. -/
theorem fill_of_unknown {key : List Char} {after : List (List Char)}
    (unknown : table.get? (String.ofList key) = none) :
    ∀ {template : Template} {before : List (List Char)}, template.keys = before ++ key :: after →
      (∀ k ∈ before, table.contains (String.ofList k)) →
        fill table whole template = .error (unknownKey whole key)
  | rest _, before, split, _ => by cases before <;> cases split
  | unclosed _ _, before, split, _ => by cases before <;> cases split
  | hole text first next, [], split, _ => by
      cases split
      rw [fill, lookUp_of_none unknown]
  | hole text first next, _ :: before, split, known => by
      obtain ⟨rfl, hnext⟩ := List.cons.inj split
      obtain ⟨hfirst, hbefore⟩ := List.forall_mem_cons.1 known
      obtain ⟨v, hv⟩ := Option.isSome_iff_exists.1 hfirst
      rw [fill, lookUp_of_some hv]
      dsimp only
      rw [fill_of_unknown unknown hnext hbefore]
      rfl

/-- A placeholder that is not closed is found when all before it have a value. -/
theorem fill_of_unclosed : ∀ {template : Template}, ¬ template.Closed →
    (∀ key ∈ template.keys, table.contains (String.ofList key)) →
      fill table whole template = .error (unterminated whole)
  | rest _, notClosed, _ => absurd trivial notClosed
  | unclosed _ _, _, _ => rfl
  | hole text key next, notClosed, known => by
      obtain ⟨hkey, hnext⟩ := List.forall_mem_cons.1 known
      obtain ⟨v, hv⟩ := Option.isSome_iff_exists.1 hkey
      have notClosed : ¬ next.Closed := notClosed
      rw [fill, lookUp_of_some hv]
      dsimp only
      rw [fill_of_unclosed notClosed hnext]
      rfl

/-! ### Evaluation -/

/-- A text without an opening mark is a template without a placeholder. -/
theorem not_opens_iff : opens whole.toList = false ↔ read whole = rest whole.toList := by
  rw [← Bool.not_eq_true, opens_iff]
  exact ⟨fun literal => scan_rest [] literal, fun h => (read_iff.2 h).1⟩

/-- **The test for a text that is one placeholder agrees with its template.** -/
theorem soleKey?_eq_some {key : List Char} :
    soleKey? whole.toList = some key ↔ (read whole).Sole key := by
  constructor
  · intro h
    unfold soleKey? at h
    split at h
    next cs htext =>
      split at h
      next test =>
        obtain rfl := Option.some.inj h
        simp only [Bool.and_eq_true, decide_eq_true_eq, Bool.not_eq_true', List.contains_eq_mem,
          decide_eq_false_iff_not] at test
        obtain ⟨⟨closed, literal⟩, closes⟩ := test
        have literal : IsLiteral cs.dropLast := by rwa [← Bool.not_eq_true, opens_iff] at literal
        refine ⟨read_iff.1 ⟨⟨by decide, closes, by simp [WellFormed, IsLiteral]⟩, ?_⟩, literal⟩
        rw [htext, written, written, List.nil_append,
          List.dropLast_append_getLast? _ closed]
      next => cases h
    next => cases h
  · rintro ⟨hread, literal⟩
    obtain ⟨⟨-, closes, -⟩, htext⟩ := read_iff.2 hread
    have literal : opens key = false := by rwa [← Bool.not_eq_true, opens_iff]
    rw [← htext, written, written, List.nil_append, soleKey?]
    simp [literal, closes]

theorem evaluate_rest (h : read whole = rest text) :
    evaluate table whole = .ok (.string whole) := by
  have htext : text = whole.toList := (read_iff.2 h).2
  rw [evaluate, not_opens_iff.2 (htext ▸ h)]
  rfl

theorem evaluate_sole {key : List Char} (h : (read whole).Sole key) :
    evaluate table whole = lookUp table whole key := by
  have marked : opens whole.toList = true := by
    by_contra plain
    have hrest := not_opens_iff.1 (Bool.not_eq_true _ ▸ plain)
    rw [h.1] at hrest
    cases hrest
  rw [evaluate, if_pos marked, soleKey?_eq_some.2 h]

/-- A text with a placeholder that is not all of it is filled in. -/
theorem evaluate_filled (holed : ∀ text, read whole ≠ rest text)
    (mixed : ∀ key, ¬ (read whole).Sole key) :
    evaluate table whole = (fill table whole (read whole)).map .string := by
  unfold evaluate
  split
  · split
    next key h => exact absurd (soleKey?_eq_some.1 h) (mixed key)
    next => rfl
  next plain => exact absurd (not_opens_iff.1 (Bool.not_eq_true _ ▸ plain)) (holed _)

/-- What stops the filling stops the evaluation. -/
theorem evaluate_of_fill {e : Error} (failed : fill table whole (read whole) = .error e) :
    evaluate table whole = .error e := by
  by_cases sole : ∃ key, (read whole).Sole key
  · obtain ⟨key, h⟩ := sole
    rw [evaluate_sole h]
    rw [h.1, fill] at failed
    cases found : lookUp table whole key with
    | ok v => rw [found] at failed; cases failed
    | error e' => rw [found] at failed; cases failed; rfl
  · rw [evaluate_filled (fun text h => ?_) fun key h => sole ⟨key, h⟩, failed]
    · rfl
    · rw [h] at failed
      cases failed

/-- **What a text evaluates to is told by the one well-formed template it is the text of.**  Without
a placeholder it is the text itself; as one placeholder with a literal key, the value of the key;
with a value for every key, the text with the values' texts put in, whatever these hold; and else an
error that quotes the text, for the first key without a value if there is one, and for the
placeholder that is not closed otherwise. -/
theorem evaluate_written (table : Table Value) (s : String) :
    (∃! template : Template, template.WellFormed ∧ template.written = s.toList) ∧
    ∀ template : Template, template.WellFormed → template.written = s.toList →
      (template.keys = [] → template.Closed → evaluate table s = .ok (.string s)) ∧
      (∀ key v, template.Sole key → table.get? (String.ofList key) = some v →
        evaluate table s = .ok v) ∧
      (∀ value : List Char → Value, template.keys ≠ [] → template.Closed →
        (∀ key, ¬ template.Sole key) →
        (∀ key ∈ template.keys, table.get? (String.ofList key) = some (value key)) →
        evaluate table s = .ok (.string (template.filled fun key => (value key).text))) ∧
      (∀ before key after, template.keys = before ++ key :: after →
        (∀ k ∈ before, table.contains (String.ofList k)) →
        table.get? (String.ofList key) = none →
        evaluate table s =
          .error (.expression s ("unknown placeholder '" ++ String.ofList key ++ "'"))) ∧
      (¬ template.Closed → (∀ key ∈ template.keys, table.contains (String.ofList key)) →
        evaluate table s = .error (.expression s "unterminated placeholder")) := by
  refine ⟨⟨read s, read_iff.2 rfl, fun template h => (read_iff.1 h).symm⟩, ?_⟩
  intro template wellFormed hwritten
  obtain rfl : read s = template := read_iff.1 ⟨wellFormed, hwritten⟩
  refine ⟨fun none closed => ?_, fun key v sole known => ?_,
    fun value some closed mixed known => ?_, fun before key after split known unknown => ?_,
    fun notClosed known => ?_⟩
  · cases h : read s with
    | rest text => exact evaluate_rest h
    | hole text key next => rw [h] at none; cases none
    | unclosed text tail => rw [h] at closed; exact closed.elim
  · rw [evaluate_sole sole, lookUp_of_some known]
  · have holed : ∀ text, read s ≠ rest text := fun text h => some (by rw [h]; rfl)
    rw [evaluate_filled holed mixed, fill_of_known value closed known]
    rfl
  · exact evaluate_of_fill (fill_of_unknown unknown split known)
  · exact evaluate_of_fill (fill_of_unclosed notClosed known)

/-- Of texts with an opening mark, one is its placeholder, one has a key that holds a mark, one has
a key without a value before its unclosed placeholder, and one has only the latter. -/
theorem evaluate_written_of_marks :
    let table := (Table.empty.insert "a" (Value.int 1)).insert "$\x7ba" (.bool true)
    evaluate table "\x7da\x7d" = .ok (.string "\x7da\x7d") ∧
      evaluate table "$\x7ba\x7d" = .ok (.int 1) ∧
      evaluate table "$\x7b$\x7ba\x7d" = .ok (.string "true") ∧
      evaluate table "$\x7ba\x7d$\x7bb\x7d$\x7b" =
        .error (.expression "$\x7ba\x7d$\x7bb\x7d$\x7b" "unknown placeholder 'b'") ∧
      evaluate table "$$\x7ba\x7d$\x7b" =
        .error (.expression "$$\x7ba\x7d$\x7b" "unterminated placeholder") := by
  intro table
  have known : table.get? "a" = some (.int 1) := rfl
  have mark : table.get? "$\x7ba" = some (.bool true) := rfl
  refine ⟨?_, ?_, ?_, ?_, ?_⟩
  · exact ((evaluate_written table _).2 (rest ['\x7d', 'a', '\x7d']) (by decide) rfl).1 rfl trivial
  · exact ((evaluate_written table _).2 (hole [] ['a'] (rest [])) (by decide) rfl).2.1 ['a'] _
      ⟨rfl, by decide⟩ known
  · refine ((evaluate_written table _).2 (hole [] ['$', '\x7b', 'a'] (rest []))
      (by decide) rfl).2.2.1 (fun _ => .bool true) (by decide) trivial ?_ ?_
    · rintro key ⟨sole, literal⟩
      cases sole
      exact absurd literal (by decide)
    · exact List.forall_mem_singleton.2 mark
  · exact ((evaluate_written table _).2 (hole [] ['a'] (hole [] ['b'] (unclosed [] [])))
      (by decide) rfl).2.2.2.1 [['a']] ['b'] [] rfl (List.forall_mem_singleton.2 rfl) rfl
  · exact ((evaluate_written table _).2 (hole ['$'] ['a'] (unclosed [] [])) (by decide) rfl).2.2.2.2
      (fun closed => closed) (List.forall_mem_singleton.2 rfl)

end Wiring.Template
