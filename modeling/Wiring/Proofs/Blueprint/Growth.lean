import Wiring.Blueprint.Memory

/-!
# Blueprints — growth

`r.Grows r'` says that the raw value `r'` is `r` with no change but more memory: a literal may have
become dynamic, and a literal or an array may have come to know a type it did not know.  What is
remembered already stays, and nested blueprints are the same.  `BlueprintOf.Grows` says so of a
blueprint.

Growth is a preorder, and **absorbing a copy is growth** (`BlueprintOf.grows_absorb`), whatever the
copy remembers.
-/

namespace Wiring

/-- The type, if one is known, is known later. -/
def KeepsType (known later : Option Ty) : Prop :=
  ∀ ty, known = some ty → later = some ty

/-- The literal has the same text and declared type, and remembers what it did. -/
structure Literal.Grows (l m : Literal) : Prop where
  text : m.text = l.text
  typeName : m.typeName = l.typeName
  target : KeepsType l.target m.target
  dynamic : l.dynamic → m.dynamic

namespace Raw

/-- The texts of two properties tables are the same, entry by entry, and remember what they did. -/
def GrowsLiterals : List (Literal × Literal) → List (Literal × Literal) → Prop
  | [], fs => fs = []
  | (k, v) :: es, fs =>
    match fs with
    | [] => False
    | (k', v') :: fs => k.Grows k' ∧ v.Grows v' ∧ GrowsLiterals es fs

mutual

/-- The second raw value is the first with no change but more memory. -/
def Grows : Raw → Raw → Prop
  | literal l, r => match r with | literal m => l.Grows m | _ => False
  | array name ty es, r =>
    match r with
    | array name' ty' fs => name' = name ∧ KeepsType ty ty' ∧ GrowsAll es fs
    | _ => False
  | list es, r => match r with | list fs => GrowsAll es fs | _ => False
  | set es, r => match r with | set fs => GrowsAll es fs | _ => False
  | map es, r => match r with | map fs => GrowsEntries es fs | _ => False
  | properties es, r => match r with | properties fs => GrowsLiterals es fs | _ => False
  | r, r' => r' = r
termination_by structural r => r

/-- The elements grow, one by one. -/
def GrowsAll : List Raw → List Raw → Prop
  | [], fs => fs = []
  | e :: es, fs =>
    match fs with
    | [] => False
    | f :: fs => Grows e f ∧ GrowsAll es fs
termination_by structural es => es

/-- The keys and values grow, entry by entry. -/
def GrowsEntries : List (Raw × Raw) → List (Raw × Raw) → Prop
  | [], fs => fs = []
  | (k, v) :: es, fs =>
    match fs with
    | [] => False
    | (k', v') :: fs => Grows k k' ∧ Grows v v' ∧ GrowsEntries es fs
termination_by structural es => es

end

/-- The properties keep their names, and their values grow. -/
def GrowsProperties : List (String × Raw) → List (String × Raw) → Prop
  | [], qs => qs = []
  | (name, r) :: ps, qs =>
    match qs with
    | [] => False
    | (name', r') :: qs => name' = name ∧ Grows r r' ∧ GrowsProperties ps qs

end Raw

/-- The second blueprint is the first with no change but more memory. -/
structure BlueprintOf.Grows (b b' : Blueprint) : Prop where
  id : b'.id = b.id
  className : b'.className = b.className
  scope : b'.scope = b.scope
  dependsOn : b'.dependsOn = b.dependsOn
  synthetic : b'.synthetic = b.synthetic
  resource : b'.resource = b.resource
  args : Raw.GrowsAll b.args b'.args
  properties : Raw.GrowsProperties b.properties b'.properties

/-! ### Growth is a preorder -/

theorem KeepsType.refl (known : Option Ty) : KeepsType known known := fun _ h => h

theorem KeepsType.trans {a b c : Option Ty} (h : KeepsType a b) (h' : KeepsType b c) :
    KeepsType a c := fun ty ha => h' ty (h ty ha)

theorem KeepsType.or (known later : Option Ty) : KeepsType known (known.or later) := by
  rintro ty rfl
  rfl

namespace Literal

theorem Grows.refl (l : Literal) : l.Grows l := ⟨rfl, rfl, .refl _, id⟩

theorem Grows.trans {l m n : Literal} (h : l.Grows m) (h' : m.Grows n) : l.Grows n :=
  ⟨h'.text.trans h.text, h'.typeName.trans h.typeName, h.target.trans h'.target,
    fun hl => h'.dynamic (h.dynamic hl)⟩

theorem grows_absorb (l later : Literal) : l.Grows (l.absorb later) :=
  ⟨rfl, rfl, .or _ _, fun hl => by rw [absorb, hl]; rfl⟩

end Literal

namespace Raw

theorem GrowsLiterals.refl : ∀ es : List (Literal × Literal), GrowsLiterals es es
  | [] => rfl
  | (k, v) :: es => ⟨.refl k, .refl v, GrowsLiterals.refl es⟩

theorem GrowsLiterals.trans : ∀ {es fs gs : List (Literal × Literal)},
    GrowsLiterals es fs → GrowsLiterals fs gs → GrowsLiterals es gs
  | [], _, _, h, h' => by cases h; exact h'
  | _ :: _, [], _, h, _ => h.elim
  | _ :: _, _ :: _, [], _, h' => h'.elim
  | _ :: _, _ :: _, _ :: _, ⟨hk, hv, h⟩, ⟨hk', hv', h'⟩ =>
    ⟨hk.trans hk', hv.trans hv', h.trans h'⟩

theorem growsLiterals_absorbLiterals : ∀ es fs : List (Literal × Literal),
    GrowsLiterals es (absorbLiterals es fs)
  | [], fs => by cases fs <;> rfl
  | e :: es, [] => GrowsLiterals.refl (e :: es)
  | (k, v) :: es, (k', v') :: fs =>
    ⟨k.grows_absorb k', v.grows_absorb v', growsLiterals_absorbLiterals es fs⟩

mutual

theorem Grows.refl : ∀ r : Raw, r.Grows r
  | null | value _ | reference _ | nameReference _ | dependency _ | holder _ _ _ _ | nested _ _ =>
    rfl
  | literal l => Literal.Grows.refl l
  | array _ ty es => ⟨rfl, .refl ty, GrowsAll.refl es⟩
  | list es | set es => GrowsAll.refl es
  | map es => GrowsEntries.refl es
  | properties es => GrowsLiterals.refl es

theorem GrowsAll.refl : ∀ es : List Raw, GrowsAll es es
  | [] => rfl
  | e :: es => ⟨Grows.refl e, GrowsAll.refl es⟩

theorem GrowsEntries.refl : ∀ es : List (Raw × Raw), GrowsEntries es es
  | [] => rfl
  | (k, v) :: es => ⟨Grows.refl k, Grows.refl v, GrowsEntries.refl es⟩

end

mutual

theorem Grows.trans : ∀ {a b c : Raw}, a.Grows b → b.Grows c → a.Grows c
  | null, _, _, h, h' | value _, _, _, h, h' | reference _, _, _, h, h'
  | nameReference _, _, _, h, h' | dependency _, _, _, h, h' | holder _ _ _ _, _, _, h, h'
  | nested _ _, _, _, h, h' => by cases h; exact h'
  | literal _, b, c, h, h' => by
      cases b with
      | literal _ =>
          cases c with
          | literal _ => exact Literal.Grows.trans h h'
          | _ => exact h'.elim
      | _ => exact h.elim
  | array _ _ es, b, c, h, h' => by
      cases b with
      | array _ _ fs =>
          cases c with
          | array _ _ gs =>
              obtain ⟨name, ty, elements⟩ := h
              obtain ⟨name', ty', elements'⟩ := h'
              exact ⟨name'.trans name, ty.trans ty', elements.trans elements'⟩
          | _ => exact h'.elim
      | _ => exact h.elim
  | list es, b, c, h, h' => by
      cases b with
      | list fs =>
          cases c with
          | list gs => exact (show GrowsAll es fs from h).trans h'
          | _ => exact h'.elim
      | _ => exact h.elim
  | set es, b, c, h, h' => by
      cases b with
      | set fs =>
          cases c with
          | set gs => exact (show GrowsAll es fs from h).trans h'
          | _ => exact h'.elim
      | _ => exact h.elim
  | map es, b, c, h, h' => by
      cases b with
      | map fs =>
          cases c with
          | map gs => exact (show GrowsEntries es fs from h).trans h'
          | _ => exact h'.elim
      | _ => exact h.elim
  | properties es, b, c, h, h' => by
      cases b with
      | properties fs =>
          cases c with
          | properties gs => exact (show GrowsLiterals es fs from h).trans h'
          | _ => exact h'.elim
      | _ => exact h.elim

theorem GrowsAll.trans : ∀ {es fs gs : List Raw}, GrowsAll es fs → GrowsAll fs gs → GrowsAll es gs
  | [], _, _, h, h' => by cases h; exact h'
  | _ :: _, [], _, h, _ => h.elim
  | _ :: _, _ :: _, [], _, h' => h'.elim
  | _ :: _, _ :: _, _ :: _, ⟨he, h⟩, ⟨he', h'⟩ => ⟨he.trans he', h.trans h'⟩

theorem GrowsEntries.trans : ∀ {es fs gs : List (Raw × Raw)},
    GrowsEntries es fs → GrowsEntries fs gs → GrowsEntries es gs
  | [], _, _, h, h' => by cases h; exact h'
  | _ :: _, [], _, h, _ => h.elim
  | _ :: _, _ :: _, [], _, h' => h'.elim
  | (_, _) :: _, (_, _) :: _, (_, _) :: _, ⟨hk, hv, h⟩, ⟨hk', hv', h'⟩ =>
    ⟨hk.trans hk', hv.trans hv', h.trans h'⟩

end

theorem GrowsProperties.refl : ∀ ps : List (String × Raw), GrowsProperties ps ps
  | [] => rfl
  | (_, r) :: ps => ⟨rfl, .refl r, GrowsProperties.refl ps⟩

theorem GrowsProperties.trans : ∀ {ps qs rs : List (String × Raw)},
    GrowsProperties ps qs → GrowsProperties qs rs → GrowsProperties ps rs
  | [], _, _, h, h' => by cases h; exact h'
  | _ :: _, [], _, h, _ => h.elim
  | _ :: _, _ :: _, [], _, h' => h'.elim
  | _ :: _, _ :: _, _ :: _, ⟨name, hr, h⟩, ⟨name', hr', h'⟩ =>
    ⟨name'.trans name, hr.trans hr', h.trans h'⟩

/-- The values of properties grow one by one. -/
theorem growsAll_of_growsProperties : ∀ {ps qs : List (String × Raw)}, GrowsProperties ps qs →
    GrowsAll (ps.map Prod.snd) (qs.map Prod.snd)
  | [], _, h => by cases h; rfl
  | _ :: _, [], h => h.elim
  | _ :: _, _ :: _, ⟨_, hr, h⟩ => ⟨hr, growsAll_of_growsProperties h⟩

/-! ### Absorbing is growth -/

mutual

theorem grows_absorb : ∀ r later : Raw, r.Grows (r.absorb later)
  | null, _ | value _, _ | reference _, _ | nameReference _, _ | dependency _, _
  | holder _ _ _ _, _ | nested _ _, _ => rfl
  | literal l, later => by
      cases later with
      | literal m => exact l.grows_absorb m
      | _ => exact Grows.refl (literal l)
  | array name ty es, later => by
      cases later with
      | array _ ty' fs => exact ⟨rfl, .or ty ty', growsAll_absorbAll es fs⟩
      | _ => exact Grows.refl (array name ty es)
  | list es, later => by
      cases later with
      | list fs => exact growsAll_absorbAll es fs
      | _ => exact Grows.refl (list es)
  | set es, later => by
      cases later with
      | set fs => exact growsAll_absorbAll es fs
      | _ => exact Grows.refl (set es)
  | map es, later => by
      cases later with
      | map fs => exact growsEntries_absorbEntries es fs
      | _ => exact Grows.refl (map es)
  | properties es, later => by
      cases later with
      | properties fs => exact growsLiterals_absorbLiterals es fs
      | _ => exact Grows.refl (properties es)

theorem growsAll_absorbAll : ∀ es fs : List Raw, GrowsAll es (absorbAll es fs)
  | [], _ => rfl
  | e :: es, [] => GrowsAll.refl (e :: es)
  | e :: es, f :: fs => ⟨grows_absorb e f, growsAll_absorbAll es fs⟩

theorem growsEntries_absorbEntries : ∀ es fs : List (Raw × Raw),
    GrowsEntries es (absorbEntries es fs)
  | [], _ => rfl
  | e :: es, [] => GrowsEntries.refl (e :: es)
  | (k, v) :: es, (k', v') :: fs =>
    ⟨grows_absorb k k', grows_absorb v v', growsEntries_absorbEntries es fs⟩

end

theorem growsProperties_absorbProperties : ∀ ps qs : List (String × Raw),
    GrowsProperties ps (absorbProperties ps qs)
  | [], qs => by cases qs <;> rfl
  | p :: ps, [] => GrowsProperties.refl (p :: ps)
  | (_, r) :: ps, (_, r') :: qs =>
    ⟨rfl, grows_absorb r r', growsProperties_absorbProperties ps qs⟩

end Raw

namespace BlueprintOf

theorem Grows.refl (b : Blueprint) : b.Grows b :=
  ⟨rfl, rfl, rfl, rfl, rfl, rfl, .refl b.args, .refl b.properties⟩

theorem Grows.trans {a b c : Blueprint} (h : a.Grows b) (h' : b.Grows c) : a.Grows c :=
  ⟨h'.id.trans h.id, h'.className.trans h.className, h'.scope.trans h.scope,
    h'.dependsOn.trans h.dependsOn, h'.synthetic.trans h.synthetic, h'.resource.trans h.resource,
    h.args.trans h'.args, h.properties.trans h'.properties⟩

/-- **Absorbing is growth**, whatever the copy remembers. -/
theorem grows_absorb (b later : Blueprint) : b.Grows (b.absorb later) :=
  ⟨rfl, rfl, rfl, rfl, rfl, rfl, Raw.growsAll_absorbAll b.args later.args,
    Raw.growsProperties_absorbProperties b.properties later.properties⟩

theorem Grows.isSingleton {b b' : Blueprint} (h : b.Grows b') : b'.isSingleton = b.isSingleton := by
  rw [BlueprintOf.isSingleton, h.scope, BlueprintOf.isSingleton]

end BlueprintOf

end Wiring
