import Mathlib.Data.List.Perm.Basic
import Wiring.Value.Equality

/-!
# Values — equality is an equivalence

Sets, maps and properties are compared by pairing off: each member of the one takes the first member
of the other that is equal to it.  This finds a partner for every member whenever there is a way to
(`pairOffBy_iff`), as long as equal members are equal to the same values (`Uniform`).  So **equality
of values is an equivalence**, at any depth.
-/

namespace Wiring

section PairingOff

variable {α : Type}

theorem perm_of_takeOut? {p : α → Bool} : ∀ {xs ys : List α}, takeOut? p xs = some ys →
    ∃ x, p x = true ∧ xs.Perm (x :: ys)
  | [], _, h => by cases h
  | x :: xs, ys, h => by
      rw [takeOut?] at h
      split at h
      next hx =>
        cases h
        exact ⟨x, hx, .refl _⟩
      next =>
        obtain ⟨zs, hzs, rfl⟩ := Option.map_eq_some_iff.1 h
        obtain ⟨y, hy, perm⟩ := perm_of_takeOut? hzs
        exact ⟨y, hy, (perm.cons x).trans (.swap y x zs)⟩

theorem takeOut?_isSome {p : α → Bool} {x : α} (hx : p x = true) : ∀ {xs : List α}, x ∈ xs →
    (takeOut? p xs).isSome
  | y :: ys, hmem => by
      rw [takeOut?]
      split
      · rfl
      next hy =>
        rw [Option.isSome_map]
        rcases List.mem_cons.1 hmem with rfl | hmem
        · exact absurd hx hy
        · exact takeOut?_isSome hx hmem

/-- Each member of either list has a member of its own in the other that `r` accepts. -/
def pairOffBy (r : α → α → Bool) : List α → List α → Bool
  | [], ys => ys.isEmpty
  | x :: xs, ys =>
    match takeOut? (r x) ys with
    | none => false
    | some ys => pairOffBy r xs ys

/-- What `r` accepts beside `x`, it accepts exactly what `x` is accepted with. -/
def Uniform (r : α → α → Bool) (x : α) : Prop :=
  ∀ y, r x y = true → ∀ z, r x z = r y z

variable {r : α → α → Bool} {x : α} {xs ys zs : List α}

/-- A partner may be exchanged for another one that serves as well. -/
theorem exists_exchanged {y z : α} (h : List.Forall₂ (r · · = true) xs ys) (hy : y ∈ ys)
    (serves : ∀ x ∈ xs, r x y = true → r x z = true) :
    ∃ zs, List.Forall₂ (r · · = true) xs zs ∧ (z :: ys).Perm (y :: zs) := by
  induction h with
  | nil => cases hy
  | @cons x w xs ys hxw hrest ih =>
      rcases List.mem_cons.1 hy with rfl | hy
      · exact ⟨z :: ys, .cons (serves x List.mem_cons_self hxw) hrest, .swap y z ys⟩
      · obtain ⟨zs, hzs, perm⟩ := ih hy fun x hx => serves x (List.mem_cons_of_mem _ hx)
        refine ⟨w :: zs, .cons hxw hzs, (List.Perm.swap w z ys).trans ?_⟩
        exact (perm.cons w).trans (.swap y w zs)

/-- Pairing off finds partners whenever there are any. -/
theorem pairOffBy_iff : ∀ {xs ys : List α}, (∀ x ∈ xs, Uniform r x) →
    (pairOffBy r xs ys = true ↔ ∃ zs, ys.Perm zs ∧ List.Forall₂ (r · · = true) xs zs)
  | [], ys, _ => by
      rw [pairOffBy, List.isEmpty_iff]
      constructor
      · rintro rfl
        exact ⟨[], .refl _, .nil⟩
      · rintro ⟨zs, perm, h⟩
        cases h
        exact perm.eq_nil
  | x :: xs, ys, uniform => by
      have rest {ys : List α} : pairOffBy r xs ys = true ↔
          ∃ zs, ys.Perm zs ∧ List.Forall₂ (r · · = true) xs zs :=
        pairOffBy_iff fun x hx => uniform x (List.mem_cons_of_mem _ hx)
      rw [pairOffBy]
      constructor
      · intro h
        split at h
        next => cases h
        next ys' taken =>
          obtain ⟨y, hy, perm⟩ := perm_of_takeOut? taken
          obtain ⟨zs, perm', hzs⟩ := rest.1 h
          exact ⟨y :: zs, perm.trans (perm'.cons y), .cons hy hzs⟩
      · rintro ⟨zs, perm, h⟩
        obtain ⟨z, zs, hz, hzs, rfl⟩ := List.forall₂_cons_left_iff.1 h
        obtain ⟨ys', taken⟩ := Option.isSome_iff_exists.1
          (takeOut?_isSome hz (perm.symm.subset List.mem_cons_self))
        obtain ⟨y, hy, perm'⟩ := perm_of_takeOut? taken
        rw [taken]
        refine rest.2 ?_
        -- `x` takes `y`; whoever had `y` gets `z`, the partner `x` had
        have both : (z :: zs).Perm (y :: ys') := perm.symm.trans perm'
        rcases List.mem_cons.1 (both.symm.subset List.mem_cons_self) with rfl | hmem
        · exact ⟨zs, both.symm.cons_inv, hzs⟩
        · obtain ⟨zs', hzs', perm''⟩ := exists_exchanged hzs hmem fun x' hx' hx'y => by
            rw [uniform x' (List.mem_cons_of_mem _ hx') y hx'y z,
              ← uniform x List.mem_cons_self y hy z, hz]
          exact ⟨zs', (both.symm.trans perm'').cons_inv, hzs'⟩

theorem length_eq_of_pairOffBy (uniform : ∀ x ∈ xs, Uniform r x) (h : pairOffBy r xs ys = true) :
    xs.length = ys.length := by
  obtain ⟨zs, perm, hzs⟩ := (pairOffBy_iff uniform).1 h
  exact hzs.length_eq.trans perm.length_eq.symm

theorem found_of_pairOffBy (uniform : ∀ x ∈ xs, Uniform r x) (h : pairOffBy r xs ys = true) :
    ∀ x ∈ xs, ∃ y ∈ ys, r x y = true := by
  obtain ⟨zs, perm, hzs⟩ := (pairOffBy_iff uniform).1 h
  intro x hx
  obtain ⟨i, hi, rfl⟩ := List.getElem_of_mem hx
  have hi' : i < zs.length := hzs.length_eq ▸ hi
  exact ⟨zs[i], perm.symm.subset (List.getElem_mem hi'), hzs.get hi hi'⟩

/-- Members that are accepted are accepted with the same partners. -/
theorem forall₂_iff (uniform : ∀ x ∈ xs, Uniform r x) (h : List.Forall₂ (r · · = true) xs ys) :
    ∀ zs : List α, List.Forall₂ (r · · = true) xs zs ↔ List.Forall₂ (r · · = true) ys zs := by
  induction h with
  | nil => exact fun zs => Iff.rfl
  | @cons x y xs ys hxy hrest ih =>
      have rest := ih fun x hx => uniform x (List.mem_cons_of_mem _ hx)
      intro zs
      cases zs with
      | nil => exact ⟨nofun, nofun⟩
      | cons z zs =>
          rw [List.forall₂_cons, List.forall₂_cons, rest, uniform x List.mem_cons_self y hxy z]

/-- What a uniform member is accepted with is uniform. -/
theorem Uniform.partner {y : α} (h : Uniform r x) (hxy : r x y = true) : Uniform r y := by
  intro w hyw z
  have hxw : r x w = true := (h y hxy w).trans hyw
  rw [← h y hxy z, h w hxw z]

theorem uniform_of_forall₂ (uniform : ∀ x ∈ xs, Uniform r x)
    (h : List.Forall₂ (r · · = true) xs ys) : ∀ y ∈ ys, Uniform r y := by
  induction h with
  | nil => exact nofun
  | @cons x y xs ys hxy hrest ih =>
      refine List.forall_mem_cons.2 ⟨(uniform x List.mem_cons_self).partner hxy, ?_⟩
      exact ih fun x hx => uniform x (List.mem_cons_of_mem _ hx)

/-- Lists that are paired off are paired off with the same lists. -/
theorem pairOffBy_congr (uniform : ∀ x ∈ xs, Uniform r x) (h : pairOffBy r xs ys = true)
    (zs : List α) : pairOffBy r xs zs = pairOffBy r ys zs := by
  obtain ⟨ys', perm, hys'⟩ := (pairOffBy_iff uniform).1 h
  have uniform' := uniform_of_forall₂ uniform hys'
  have same := forall₂_iff uniform hys'
  rw [Bool.eq_iff_iff, pairOffBy_iff uniform,
    pairOffBy_iff fun y hy => uniform' y (perm.subset hy)]
  constructor
  · rintro ⟨zs', permz, hzs'⟩
    obtain ⟨zs'', hzs'', perm'⟩ := List.perm_comp_forall₂ perm ((same zs').1 hzs')
    exact ⟨zs'', permz.trans perm'.symm, hzs''⟩
  · rintro ⟨zs', permz, hzs'⟩
    obtain ⟨zs'', hzs'', perm'⟩ := List.perm_comp_forall₂ perm.symm hzs'
    exact ⟨zs'', permz.trans perm'.symm, (same zs'').2 hzs''⟩

theorem pairOffBy_refl : ∀ {xs : List α}, (∀ x ∈ xs, r x x = true) → pairOffBy r xs xs = true
  | [], _ => rfl
  | x :: xs, h => by
      rw [pairOffBy, takeOut?, if_pos (h x List.mem_cons_self)]
      exact pairOffBy_refl fun x hx => h x (List.mem_cons_of_mem _ hx)

end PairingOff

namespace Value

/-! ### Collections -/

theorem pairOff_eq : ∀ xs ys : List Value, pairOff xs ys = pairOffBy beq xs ys
  | [], _ => rfl
  | x :: xs, ys => by
      rw [pairOff, pairOffBy]
      cases takeOut? (fun y => beq x y) ys with
      | none => rfl
      | some ys => exact pairOff_eq xs ys

/-- The entries have equal keys and equal values. -/
def beqEntry (e f : Value × Value) : Bool :=
  beq e.1 f.1 && beq e.2 f.2

theorem beqEntry_eq (k v : Value) :
    beqEntry (k, v) = fun entry => beq k entry.1 && beq v entry.2 := rfl

theorem pairOffEntries_eq : ∀ es fs : List (Value × Value),
    pairOffEntries es fs = pairOffBy beqEntry es fs
  | [], _ => rfl
  | (k, v) :: es, fs => by
      rw [pairOffEntries, pairOffBy, ← beqEntry_eq]
      cases takeOut? (beqEntry (k, v)) fs with
      | none => rfl
      | some fs => exact pairOffEntries_eq es fs

theorem pairOff_congr {xs ys : List Value} (uniform : ∀ x ∈ xs, Uniform beq x)
    (h : pairOff xs ys = true) (zs : List Value) : pairOff xs zs = pairOff ys zs := by
  rw [pairOff_eq] at h
  rw [pairOff_eq, pairOff_eq]
  exact pairOffBy_congr uniform h zs

theorem pairOffEntries_congr {es fs : List (Value × Value)}
    (uniform : ∀ e ∈ es, Uniform beqEntry e) (h : pairOffEntries es fs = true)
    (gs : List (Value × Value)) : pairOffEntries es gs = pairOffEntries fs gs := by
  rw [pairOffEntries_eq] at h
  rw [pairOffEntries_eq, pairOffEntries_eq]
  exact pairOffBy_congr uniform h gs

theorem inOrder_iff : ∀ {xs ys : List Value},
    inOrder xs ys = true ↔ List.Forall₂ (beq · · = true) xs ys
  | [], ys => by rw [inOrder, List.isEmpty_iff, List.forall₂_nil_left_iff]
  | x :: xs, [] => ⟨nofun, nofun⟩
  | x :: xs, y :: ys => by
      rw [inOrder, Bool.and_eq_true, inOrder_iff, List.forall₂_cons]

theorem inOrder_congr {xs ys : List Value} (uniform : ∀ x ∈ xs, Uniform beq x)
    (h : inOrder xs ys = true) (zs : List Value) : inOrder xs zs = inOrder ys zs := by
  rw [Bool.eq_iff_iff, inOrder_iff, inOrder_iff]
  exact forall₂_iff uniform (inOrder_iff.1 h) zs

theorem uniform_entry {k v : Value} (hk : Uniform beq k) (hv : Uniform beq v) :
    Uniform beqEntry (k, v) := by
  intro f hf g
  obtain ⟨hkf, hvf⟩ := Bool.and_eq_true_iff.1 hf
  rw [beqEntry, beqEntry, hk f.1 hkf, hv f.2 hvf]

theorem same_refl (o : Object) : o.same o = true := by
  cases o with
  | external typeName label => simp [Object.same]
  | built id name className args properties => simp [Object.same]

theorem uniform_same (o : Object) : Uniform Object.same o := by
  intro o' h z
  cases o <;> cases o' <;> cases z <;> simp_all [Object.same]

/-! ### Values -/

mutual

theorem beq_refl : ∀ v : Value, beq v v = true
  | null => rfl
  | bool b => beq_self_eq_true b
  | int i => beq_self_eq_true i
  | decimal d => beq_self_eq_true d
  | char c => beq_self_eq_true c
  | string s => beq_self_eq_true s
  | stringArray items => beq_self_eq_true items
  | array ty xs => by
      rw [beq, beq_self_eq_true, inOrder_iff.2 (List.forall₂_same.2 (beqAll_refl xs))]
      rfl
  | list xs => inOrder_iff.2 (List.forall₂_same.2 (beqAll_refl xs))
  | set xs => (pairOff_eq xs xs).trans (pairOffBy_refl (beqAll_refl xs))
  | map es => (pairOffEntries_eq es es).trans (pairOffBy_refl (beqEntries_refl es))
  | properties es => (pairOffEntries_eq es es).trans (pairOffBy_refl (beqEntries_refl es))
  | object o => same_refl o

theorem beqAll_refl : ∀ xs : List Value, ∀ x ∈ xs, beq x x = true
  | [] => nofun
  | x :: xs => List.forall_mem_cons.2 ⟨beq_refl x, beqAll_refl xs⟩

theorem beqEntries_refl : ∀ es : List (Value × Value), ∀ e ∈ es, beqEntry e e = true
  | [] => nofun
  | (k, v) :: es => by
      refine List.forall_mem_cons.2 ⟨?_, beqEntries_refl es⟩
      rw [beqEntry, beq_refl k, beq_refl v]
      rfl

end

/-- The value is no collection of values and no object. -/
def isAtom : Value → Bool
  | null | bool _ | int _ | decimal _ | char _ | string _ | stringArray _ => true
  | _ => false

/-- An atom is equal to no other value. -/
theorem eq_of_beq_atom {v w : Value} (atom : v.isAtom) (h : beq v w = true) : v = w := by
  cases v with
  | null =>
      cases w with
      | null => rfl
      | _ => cases h
  | bool a =>
      cases w with
      | bool b => rw [eq_of_beq h]
      | _ => cases h
  | int a =>
      cases w with
      | int b => rw [eq_of_beq h]
      | _ => cases h
  | decimal a =>
      cases w with
      | decimal b => rw [eq_of_beq h]
      | _ => cases h
  | char a =>
      cases w with
      | char b => rw [eq_of_beq h]
      | _ => cases h
  | string a =>
      cases w with
      | string b => rw [eq_of_beq h]
      | _ => cases h
  | stringArray a =>
      cases w with
      | stringArray b => rw [eq_of_beq h]
      | _ => cases h
  | _ => cases atom

mutual

-- Values that are equal are of one kind, and a value of another kind is equal to neither.
/-- Equal values are equal to the same values. -/
theorem uniform : ∀ v : Value, Uniform beq v
  | null, _, h, _ | bool _, _, h, _ | int _, _, h, _ | decimal _, _, h, _ | char _, _, h, _
  | string _, _, h, _ | stringArray _, _, h, _ => by rw [eq_of_beq_atom rfl h]
  | array t xs, w, h, u => by
      cases w with
      | array t' ys =>
          obtain ⟨ht, hxs⟩ := Bool.and_eq_true_iff.1 h
          cases u with
          | array t'' zs =>
              change (t == t'' && inOrder xs zs) = (t' == t'' && inOrder ys zs)
              rw [eq_of_beq ht, inOrder_congr (uniformAll xs) hxs zs]
          | _ => rfl
      | _ => cases h
  | list xs, w, h, u => by
      cases w with
      | list ys =>
          cases u with
          | list zs => exact inOrder_congr (uniformAll xs) h zs
          | _ => rfl
      | _ => cases h
  | set xs, w, h, u => by
      cases w with
      | set ys =>
          cases u with
          | set zs => exact pairOff_congr (uniformAll xs) h zs
          | _ => rfl
      | _ => cases h
  | map es, w, h, u => by
      cases w with
      | map fs =>
          cases u with
          | map gs => exact pairOffEntries_congr (uniformEntries es) h gs
          | _ => rfl
      | _ => cases h
  | properties es, w, h, u => by
      cases w with
      | properties fs =>
          cases u with
          | properties gs => exact pairOffEntries_congr (uniformEntries es) h gs
          | _ => rfl
      | _ => cases h
  | object a, w, h, u => by
      cases w with
      | object b =>
          cases u with
          | object c => exact uniform_same a b h c
          | _ => rfl
      | _ => cases h

theorem uniformAll : ∀ xs : List Value, ∀ x ∈ xs, Uniform beq x
  | [] => nofun
  | x :: xs => List.forall_mem_cons.2 ⟨uniform x, uniformAll xs⟩

theorem uniformEntries : ∀ es : List (Value × Value), ∀ e ∈ es, Uniform beqEntry e
  | [] => nofun
  | (k, v) :: es =>
      List.forall_mem_cons.2 ⟨uniform_entry (uniform k) (uniform v), uniformEntries es⟩

end

/-- **Equality of values is an equivalence.** -/
instance : EquivBEq Value where
  rfl {v} := beq_refl v
  symm {v w} h := (uniform v w h v).symm.trans (beq_refl v)
  trans {v w u} hvw hwu := (uniform v w hvw u).trans hwu

end Value

end Wiring
