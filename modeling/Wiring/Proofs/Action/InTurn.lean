import Mathlib.Data.List.Forall2
import Wiring.Proofs.Action.SideBySide

/-!
# Actions — one after the other

`inTurn work n items` works on the items of a list, which stand at the positions from `n` on, and
stops at the first one that fails.  **Of a list in two parts, the second part is worked on from the
state the first part ended in, or, where the first part failed, not at all** (`inTurn_append_ok`,
`inTurn_append_error`).

Work on related items that runs side by side, item by item, runs side by side on the whole lists
(`inTurn_sideBySide`), also when the lists stand at different positions.
-/

namespace Wiring

variable {σ τ ν μ α : Type}

/-- The results of work on items at the positions from `n` on, until one fails.  Each item is
replaced by the node the work left; those behind a failure stay. -/
def inTurn (work : Nat → ν → StateM σ (Resolved ν α)) (n : Nat) :
    List ν → StateM σ (Resolved (List ν) (List α))
  | [] => return ⟨[], .ok []⟩
  | item :: items => do
    let first ← work n item
    match first.outcome with
    | .error stop => return ⟨first.node :: items, .error stop⟩
    | .ok a =>
      let rest ← inTurn work (n + 1) items
      return ⟨first.node :: rest.node, rest.outcome.map (a :: ·)⟩

variable {work : Nat → ν → StateM σ (Resolved ν α)} {n : Nat} {item : ν} {s mid : σ} {node : ν}

theorem inTurn_cons_error {stop : Stop} (h : work n item s = (⟨node, .error stop⟩, mid))
    (items : List ν) : inTurn work n (item :: items) s = (⟨node :: items, .error stop⟩, mid) := by
  rw [inTurn, state_bind, h]
  rfl

theorem inTurn_cons_ok {a : α} (h : work n item s = (⟨node, .ok a⟩, mid)) (items : List ν) :
    inTurn work n (item :: items) s =
      let rest := inTurn work (n + 1) items mid
      (⟨node :: rest.1.node, rest.1.outcome.map (a :: ·)⟩, rest.2) := by
  rw [inTurn, state_bind, h]
  rfl

/-- **Behind a failure nothing is worked on.** -/
theorem inTurn_append_error {stop : Stop} (behind : List ν) :
    ∀ {n : Nat} {front nodes : List ν} {s mid : σ},
      inTurn work n front s = (⟨nodes, .error stop⟩, mid) →
        inTurn work n (front ++ behind) s = (⟨nodes ++ behind, .error stop⟩, mid)
  | _, [], _, _, _, h => by cases h
  | n, item :: front, nodes, s, mid, h => by
      rw [List.cons_append]
      rcases first : work n item s with ⟨⟨node, stop' | a⟩, mid'⟩
      · rw [inTurn_cons_error first] at h
        cases h
        rw [inTurn_cons_error first]
        rfl
      · rcases rest : inTurn work (n + 1) front mid' with ⟨⟨nodes', stop' | as⟩, s'⟩ <;>
          rw [inTurn_cons_ok first, rest] at h <;> cases h
        rw [inTurn_cons_ok first, inTurn_append_error behind rest]
        rfl

/-- **Once the first part of a list has its results, the second part is worked on from there.** -/
theorem inTurn_append_ok (behind : List ν) :
    ∀ {n : Nat} {front nodes : List ν} {s mid : σ} {as : List α},
      inTurn work n front s = (⟨nodes, .ok as⟩, mid) →
        inTurn work n (front ++ behind) s =
          let rest := inTurn work (n + front.length) behind mid
          (⟨nodes ++ rest.1.node, rest.1.outcome.map (as ++ ·)⟩, rest.2)
  | n, [], _, s, _, _, h => by
      cases h
      rw [List.nil_append, List.length_nil, Nat.add_zero]
      rcases inTurn work n behind s with ⟨⟨_, _ | _⟩, _⟩ <;> rfl
  | n, item :: front, nodes, s, mid, as, h => by
      rw [List.cons_append, List.length_cons, Nat.add_comm front.length, ← Nat.add_assoc]
      rcases first : work n item s with ⟨⟨node, stop | a⟩, mid'⟩
      · rw [inTurn_cons_error first] at h
        cases h
      · rcases rest : inTurn work (n + 1) front mid' with ⟨⟨nodes', stop | as'⟩, s'⟩ <;>
          rw [inTurn_cons_ok first, rest] at h <;> cases h
        rw [inTurn_cons_ok first, inTurn_append_ok behind rest]
        rcases inTurn work (n + 1 + front.length) behind s' with ⟨⟨_, _ | _⟩, _⟩ <;> rfl

/-- Each item has a result, unless one fails. -/
theorem length_of_inTurn_ok : ∀ {n : Nat} {items nodes : List ν} {s s' : σ} {as : List α},
    inTurn work n items s = (⟨nodes, .ok as⟩, s') → as.length = items.length
  | _, [], _, _, _, _, h => by
      cases h
      rfl
  | n, item :: items, nodes, s, s', as, h => by
      rcases first : work n item s with ⟨⟨node, stop | a⟩, mid⟩
      · rw [inTurn_cons_error first] at h
        cases h
      · rw [inTurn_cons_ok first] at h
        rcases rest : inTurn work (n + 1) items mid with ⟨⟨nodes', stop | as'⟩, s''⟩
        · rw [rest] at h
          cases h
        · rw [rest] at h
          cases h
          rw [List.length_cons, List.length_cons, length_of_inTurn_ok rest]

/-! ### Side by side -/

variable {R : σ → τ → Prop} {M N : ν → μ → Prop} {E : Error → Error → σ → Prop}

/-- Nodes that `N` relates, and outcomes that agree. -/
structure AgreesBy (N : ν → μ → Prop) (E : Error → Error → σ → Prop) (a : Resolved ν α)
    (b : Resolved μ α) (s : σ) : Prop where
  node : N a.node b.node
  outcome : Agree E a.outcome b.outcome s

/-- Work that runs side by side on items in the same place does so on the whole lists.  `M` relates
the items before the work, and `N` after it, also those that are not come to. -/
theorem inTurn_sideBySide {work' : Nat → μ → StateM τ (Resolved μ α)}
    (untouched : ∀ {item item'}, M item item' → N item item') :
    ∀ {items : List ν} {items' : List μ} {n m : Nat} {s : σ} {t : τ},
      List.Forall₂ M items items' →
      (∀ i < items.length, ∀ item item', M item item' → ∀ s t, R s t →
        SideBySide R (AgreesBy N E) (work (n + i) item) (work' (m + i) item') s t) →
      R s t → SideBySide R (AgreesBy (List.Forall₂ N) E) (inTurn work n items)
        (inTurn work' m items') s t
  | _, _, _, _, _, _, .nil, _, hR => .pure hR ⟨.nil, .ok _ _⟩
  | _, _, n, m, _, _, @List.Forall₂.cons _ _ _ _ _ items items' first rest, step, hR => by
      rw [inTurn, inTurn]
      refine (step 0 (Nat.succ_pos _) _ _ first _ _ hR).bind fun {a b s t} hR hab => ?_
      obtain ⟨node, outcome⟩ := a
      obtain ⟨node', outcome'⟩ := b
      obtain ⟨hnode, agree⟩ := hab
      cases agree with
      | exhausted => exact .pure hR ⟨.cons hnode (rest.imp fun _ _ => untouched), .exhausted s⟩
      | error he => exact .pure hR ⟨.cons hnode (rest.imp fun _ _ => untouched), .error he⟩
      | ok a =>
          have behind : SideBySide R (AgreesBy (List.Forall₂ N) E) (inTurn work (n + 1) items)
              (inTurn work' (m + 1) items') s t :=
            inTurn_sideBySide untouched rest (fun i hi => by
              rw [Nat.add_assoc, Nat.add_assoc, Nat.add_comm 1]
              exact step (i + 1) (Nat.succ_lt_succ hi)) hR
          exact behind.bind fun hR hab =>
            .pure hR ⟨.cons hnode hab.node, hab.outcome.map (a :: ·)⟩

end Wiring
