import Wiring.Container.Create
import Wiring.Proofs.Ordered
import Wiring.Proofs.Resolver.Memory
import Wiring.Proofs.Resolver.StringArrays
import Wiring.Proofs.Resolver.Values
import Wiring.Proofs.Template
import Wiring.Proofs.Value.Equality

/-!
# Resolver — ground values

A raw value is ground (`Raw.Ground`) when there is nothing in it to look up, to load, to convert or
to fill in: no references, no blueprints, no types, and only texts that stand for themselves.  It
says what it is (`Raw.denote`), with sets, maps and properties that keep the first of equal members
and the last of the values under equal keys.

**A ground value resolves to what it says and changes nothing** (`resolve_ground`), but that its
arrays remember that their elements have any type (`Raw.settle`).
-/

namespace Wiring

/-! ### What a ground value says -/

namespace Literal

/-- What the literal says: its text, or null without one. -/
def denote (l : Literal) : Value :=
  l.text.elim .null .string

theorem not_isNull_denote {l : Literal} (h : l.text.isSome) : l.denote.isNull = false := by
  obtain ⟨text, htext⟩ := Option.isSome_iff_exists.1 h
  rw [denote, htext]
  rfl

/-- The literal's text is plain, if it has one. -/
def Plain (plain : String → Prop) (l : Literal) : Prop :=
  ∀ text ∈ l.text, plain text

end Literal

namespace Raw

mutual

/-- What a ground raw value says. -/
def denote : Raw → Value
  | literal l => l.denote
  | value v => v
  | array _ _ es => .array .any (denoteAll es)
  | list es => .list (denoteAll es)
  | set es => .set (denoteAll es).eraseDups
  | map es => .map (Ordered.latest (denoteEntries es))
  | properties es => .properties (Ordered.latest (es.map fun e => (e.1.denote, e.2.denote)))
  | _ => .null
termination_by structural raw => raw

/-- What elements say. -/
def denoteAll : List Raw → List Value
  | [] => []
  | e :: es => denote e :: denoteAll es
termination_by structural es => es

/-- What entries say. -/
def denoteEntries : List (Raw × Raw) → List (Value × Value)
  | [] => []
  | (k, v) :: es => (denote k, denote v) :: denoteEntries es
termination_by structural es => es

end

mutual

/-- The raw value with arrays that remember that their elements have any type. -/
def settle : Raw → Raw
  | array typeName _ es => array typeName (some .any) (settleAll es)
  | list es => list (settleAll es)
  | set es => set (settleAll es)
  | map es => map (settleEntries es)
  | raw => raw
termination_by structural raw => raw

/-- The elements, settled. -/
def settleAll : List Raw → List Raw
  | [] => []
  | e :: es => settle e :: settleAll es
termination_by structural es => es

/-- The keys and values, settled. -/
def settleEntries : List (Raw × Raw) → List (Raw × Raw)
  | [] => []
  | (k, v) :: es => (settle k, settle v) :: settleEntries es
termination_by structural es => es

end

mutual

/-- There is nothing to look up, to load or to convert, and all texts are plain: no literal has a
type, no array declares or remembers one, and no key or value of properties is without a text. -/
def Ground (plain : String → Prop) : Raw → Prop
  | null => True
  | literal l => l.typeName = none ∧ l.target = none ∧ l.Plain plain
  | value v =>
    match v with
    | .string text => plain text
    | .stringArray items => ∀ item ∈ items, plain item
    | _ => True
  | array typeName remembered es =>
    Resolver.declaredElementType typeName = none ∧ remembered = none ∧ GroundAll plain es
  | list es => GroundAll plain es
  | set es => GroundAll plain es
  | map es => GroundEntries plain es
  | properties es =>
    ∀ e ∈ es, (e.1.text.isSome ∧ e.1.Plain plain) ∧ e.2.text.isSome ∧ e.2.Plain plain
  | _ => False
termination_by structural raw => raw

/-- All elements are ground. -/
def GroundAll (plain : String → Prop) : List Raw → Prop
  | [] => True
  | e :: es => Ground plain e ∧ GroundAll plain es
termination_by structural es => es

/-- All keys and values are ground. -/
def GroundEntries (plain : String → Prop) : List (Raw × Raw) → Prop
  | [] => True
  | (k, v) :: es => Ground plain k ∧ Ground plain v ∧ GroundEntries plain es
termination_by structural es => es

end

end Raw

namespace Resolver

variable {σ : Type} {plain : String → Prop}

/-- Plain texts evaluate to themselves, and nothing is changed by it. -/
def Literally (r : Resolver σ) (plain : String → Prop) : Prop :=
  ∀ text, plain text → ∀ s, (r.evaluateText text).run s = (.ok (.string text), s)

theorem observed_string (l : Literal) (text : String) : observed l text (.string text) = l :=
  if_pos rfl

theorem convertElement_any (r : Resolver σ) (path : ArgPath) (v : Value) :
    r.convertElement path .any v = pure v := rfl

section Literally

variable {r : Resolver σ} (h : r.Literally plain)
include h

/-! ### Literals -/

theorem evaluateLiteral_plain {l : Literal} (hl : l.Plain plain) (s : σ) :
    r.evaluateLiteral l s = (⟨l, .ok l.denote⟩, s) := by
  obtain ⟨text, typeName, target, dynamic⟩ := l
  cases text with
  | none => rfl
  | some text =>
      rw [run_evaluateLiteral rfl, h text (hl text rfl)]
      dsimp only
      rw [observed_string]
      rfl

theorem resolveLiteral_ground {l : Literal} (typeName : l.typeName = none)
    (target : l.target = none) (hl : l.Plain plain) (path : ArgPath) (s : σ) :
    r.resolveLiteral path l s = (⟨l, .ok l.denote⟩, s) := by
  have untyped : r.targetType l = pure none := by rw [targetType, target, typeName]
  rw [resolveLiteral, state_bind, evaluateLiteral_plain h hl, untyped]
  rfl

theorem resolveProperties_ground (path : ArgPath) : ∀ {es : List (Literal × Literal)},
    (∀ e ∈ es, (e.1.text.isSome ∧ e.1.Plain plain) ∧ e.2.text.isSome ∧ e.2.Plain plain) →
      ∀ s, r.resolveProperties path es s =
        (⟨es, .ok (es.map fun e => (e.1.denote, e.2.denote))⟩, s)
  | [], _, _ => rfl
  | (k, v) :: es, ground, s => by
      obtain ⟨⟨⟨hk, plaink⟩, hv, plainv⟩, rest⟩ := List.forall_mem_cons.1 ground
      have notNull : (k.denote.isNull || v.denote.isNull) = false := by
        rw [Literal.not_isNull_denote hk, Literal.not_isNull_denote hv]
        rfl
      rw [resolveProperties, state_bind, evaluateLiteral_plain h plaink]
      dsimp only
      rw [state_bind, evaluateLiteral_plain h plainv]
      dsimp only
      rw [notNull, if_neg Bool.false_ne_true, state_bind, resolveProperties_ground path rest s]
      rfl

theorem evaluateItems_plain : ∀ {items : List String}, (∀ item ∈ items, plain item) →
    ∀ s, (items.mapM r.evaluateText).run s = (.ok (items.map .string), s)
  | [], _, _ => rfl
  | item :: items, ground, s => by
      obtain ⟨hitem, rest⟩ := List.forall_mem_cons.1 ground
      rw [List.mapM_cons, Action.run_bind, h item hitem s]
      dsimp only
      rw [Action.run_bind, evaluateItems_plain rest s]
      rfl

theorem resolveValue_ground {v : Value} (ground : (Raw.value v).Ground plain) (s : σ) :
    (r.resolveValue v).run s = (.ok v, s) := by
  cases v with
  | string text => exact h text ground s
  | stringArray items =>
      rw [resolveValue, Action.run_bind, evaluateItems_plain h ground s]
      dsimp only
      rw [(unchanged_iff (List.length_map _)).2 rfl]
      rfl
  | _ => rfl

end Literally

/-! ### Raw trees -/

mutual

/-- A ground value resolves to what it says, whatever the collaborators do, as long as plain texts
evaluate to themselves. -/
theorem resolve_literally {r : Resolver σ} (h : r.Literally plain) (path : ArgPath) :
    ∀ {raw : Raw}, raw.Ground plain → ∀ s, r.resolve path raw s = (⟨raw.settle, .ok raw.denote⟩, s)
  | .null, _, _ => rfl
  | .literal l, ⟨typeName, target, hl⟩, s => by
      rw [resolve, state_bind, resolveLiteral_ground h typeName target hl]
      rfl
  | .value v, ground, s => by
      rw [resolve, Action.leaving_run, resolveValue_ground h ground s]
      rfl
  | .array typeName remembered es, ⟨untyped, empty, ground⟩, s => by
      cases empty
      have any : r.elementType path typeName none = pure .any := by
        simp only [elementType, untyped]
      rw [resolve, any, state_bind, Action.run_pure]
      dsimp only
      rw [state_bind, resolveElements_literally h path 0 ground s]
      rfl
  | .list es, ground, s => by
      rw [resolve_list, state_bind, resolveElements_literally h path 0 ground s]
      rfl
  | .set es, ground, s => by
      rw [resolve_set, state_bind, resolveElements_literally h path 0 ground s, Raw.denote,
        ← Ordered.ofList_eq_eraseDups]
      rfl
  | .map es, ground, s => by
      rw [resolve, state_bind, resolveEntries_literally h path ground s, Raw.denote,
        ← Ordered.ofPairs_eq_latest]
      rfl
  | .properties es, ground, s => by
      rw [resolve, state_bind, resolveProperties_ground h path ground s, Raw.denote,
        ← Ordered.ofPairs_eq_latest]
      rfl

theorem resolveElements_literally {r : Resolver σ} (h : r.Literally plain) (path : ArgPath) :
    ∀ (n : Nat) {es : List Raw}, Raw.GroundAll plain es →
      ∀ s, r.resolveElements path .any n es s = (⟨Raw.settleAll es, .ok (Raw.denoteAll es)⟩, s)
  | _, [], _, _ => rfl
  | n, e :: es, ⟨ground, rest⟩, s => by
      rw [resolveElements, state_bind, resolve_literally h (path.index n) ground s]
      dsimp only
      rw [convertElement_any, state_bind, Action.run_pure]
      dsimp only
      rw [state_bind, resolveElements_literally h path (n + 1) rest s]
      rfl

theorem resolveEntries_literally {r : Resolver σ} (h : r.Literally plain) (path : ArgPath) :
    ∀ {es : List (Raw × Raw)}, Raw.GroundEntries plain es →
      ∀ s, r.resolveEntries path es s = (⟨Raw.settleEntries es, .ok (Raw.denoteEntries es)⟩, s)
  | [], _, _ => rfl
  | (k, v) :: es, ⟨groundk, groundv, rest⟩, s => by
      rw [resolveEntries, state_bind, resolve_literally h path groundk s]
      dsimp only
      rw [state_bind, resolve_literally h (path.key k.denote) groundv s]
      dsimp only
      rw [state_bind, resolveEntries_literally h path rest s]
      rfl

end

end Resolver

/-! ### Texts that stand for themselves -/

theorem Template.evaluate_plain (table : Table Value) {text : String}
    (h : ¬ ['$', '\x7b'] <:+: text.toList) : Template.evaluate table text = .ok (.string text) :=
  Template.evaluate_rest (Template.scan_rest [] h)

/-- The text stands for itself: one without the opening mark of a placeholder where placeholders
are filled in, and any text where none are. -/
def Evaluation.Plain : Evaluation → String → Prop
  | placeholders, text => ¬ ['$', '\x7b'] <:+: text.toList
  | literal, _ => True
  | number, _ => False

theorem Evaluation.evaluate_plain {evaluation : Evaluation} {text : String}
    (h : evaluation.Plain text) (table : Table Value) :
    evaluation.evaluate table text = .ok (.string text) := by
  cases evaluation with
  | placeholders => exact Template.evaluate_plain table h
  | literal => rfl
  | number => exact h.elim

/-- **A ground value resolves to what it says and changes nothing**, for any owner in any container:
the raw value is left with settled arrays, and the containers as they were. -/
theorem Chain.resolve_ground {make : Maker} {evaluation : Evaluation} {r : Resolver Chain}
    (here : r.collaborators = collaborators make evaluation) {raw : Raw}
    (ground : raw.Ground evaluation.Plain) (path : ArgPath) (chain : Chain) :
    r.resolve path raw chain = (⟨raw.settle, .ok raw.denote⟩, chain) := by
  refine Resolver.resolve_literally (fun text plain chain => ?_) path ground chain
  have evaluated := Evaluation.evaluate_plain plain chain.own.placeholders
  rw [Resolver.evaluateText, here]
  change (Action.ofExcept (evaluation.evaluate chain.own.placeholders text)).run chain = _
  rw [evaluated]
  rfl

theorem Chain.resolve_ground_map :
    let raw : Raw := .map
      [(.literal { text := some "k" }, .null),
        (.literal { text := some "l" }, .array none none [.literal { text := none }]),
        (.literal { text := some "k" },
          .set [.value (.set [.int 1, .int 2]), .value (.set [.int 2, .int 1]), .list []])]
    let r : Resolver Chain :=
      { collaborators := collaborators (create 1), bean := "owner",
        blueprint := ⟨0, none, .singleton, [], false, none, [], []⟩ }
    r.resolve (.root "argument") raw ⟨{ id := "container" }, []⟩ =
      (⟨raw.settle, .ok (.map
        [(.string "k", .set [.set [.int 1, .int 2], .list []]),
          (.string "l", .array .any [.null])])⟩, ⟨{ id := "container" }, []⟩) := by
  intro raw r
  have k : ({ text := some "k" } : Literal).Plain Evaluation.placeholders.Plain := by
    rintro text ⟨⟩
    rw [Evaluation.Plain]
    decide
  have l : ({ text := some "l" } : Literal).Plain Evaluation.placeholders.Plain := by
    rintro text ⟨⟩
    rw [Evaluation.Plain]
    decide
  have ground : raw.Ground Evaluation.placeholders.Plain :=
    ⟨⟨rfl, rfl, k⟩, trivial, ⟨rfl, rfl, l⟩, ⟨rfl, rfl, ⟨rfl, rfl, nofun⟩, trivial⟩, ⟨rfl, rfl, k⟩,
      ⟨trivial, trivial, trivial, trivial⟩, trivial⟩
  exact resolve_ground rfl ground (.root "argument") ⟨{ id := "container" }, []⟩

end Wiring
