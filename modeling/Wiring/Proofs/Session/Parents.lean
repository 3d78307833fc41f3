import Wiring.Proofs.Session.Coherence

/-!
# Sessions — containers above one another

A session is given its containers each after the one above it (`Session.Grounded`), as containers come
about that are made with the one above them.  Then **no container is above itself**
(`acyclic_of_grounded`), and it stays so in every run (`outline_run`).
-/

namespace Wiring.Session

/-- Each container is given after the one above it. -/
def Grounded : List (String × Option String) → Prop
  | [] => True
  | (id, parent) :: rest => (∀ p ∈ parent, p ∉ id :: rest.map Prod.fst) ∧ Grounded rest

/-- The identities of the members, each with that of the container above it. -/
def outline (s : Session) : List (String × Option String) :=
  s.members.map fun m => (m.container.id, m.parent)

/-- No container is above itself. -/
def Acyclic (s : Session) : Prop :=
  ∀ id, (((s.chain id).own :: (s.chain id).ancestors).map Container.id).Nodup

variable {s s' : Session}

theorem Grounded.of_append : ∀ {before after : List (String × Option String)},
    Grounded (before ++ after) → Grounded after
  | [], _, h => h
  | _ :: _, _, h => Grounded.of_append h.2

/-- The container above a member is given neither with it nor after it. -/
theorem Grounded.of_member? (grounded : Grounded s.outline) {id : String} {m : Member}
    (h : s.member? id = some m) :
    ∃ later, (id, m.parent) :: later <:+ s.outline ∧
      ∀ p ∈ m.parent, p ∉ id :: later.map Prod.fst := by
  obtain ⟨hid, before, after, members, -⟩ := List.find?_eq_some_iff_append.1 h
  have houtline : s.outline = (before.map fun m => (m.container.id, m.parent)) ++
      (id, m.parent) :: after.map fun m => (m.container.id, m.parent) := by
    rw [outline, members, List.map_append, List.map_cons, eq_of_beq hid]
  refine ⟨_, ⟨_, houtline.symm⟩, ?_⟩
  rw [houtline] at grounded
  exact grounded.of_append.1

/-- Upwards of a container that is not among the last ones, none of those is met. -/
theorem not_mem_of_upwards (grounded : Grounded s.outline)
    {last : List (String × Option String)} (hlast : last <:+ s.outline) :
    ∀ {n : Nat} {start : Option String}, (∀ p ∈ start, p ∉ last.map Prod.fst) →
      ∀ c ∈ s.upwards n start, c.id ∉ last.map Prod.fst
  | 0, _, _, _, hc => nomatch hc
  | _ + 1, none, _, _, hc => nomatch hc
  | n + 1, some id, hstart, c, hc => by
      have hid : id ∉ last.map Prod.fst := hstart id rfl
      rw [upwards] at hc
      cases hm : s.member? id with
      | none => rw [hm] at hc; cases hc
      | some m =>
          rw [hm] at hc
          rcases List.mem_cons.1 hc with rfl | hc
          · rw [member?_id hm]
            exact hid
          · obtain ⟨later, hlater, habove⟩ := grounded.of_member? hm
            -- the container is not among the last ones, so these are given after it
            have hsuffix : last <:+ (id, m.parent) :: later := by
              refine (List.suffix_or_suffix_of_suffix hlast hlater).resolve_right fun h => hid ?_
              exact List.mem_map.2 ⟨_, h.subset List.mem_cons_self, rfl⟩
            exact not_mem_of_upwards grounded hlast
              (fun p hp hmem => habove p hp ((hsuffix.map Prod.fst).subset hmem)) c hc

theorem nodup_upwards (grounded : Grounded s.outline) : ∀ (n : Nat) (start : Option String),
    ((s.upwards n start).map Container.id).Nodup
  | 0, _ => List.nodup_nil
  | _ + 1, none => List.nodup_nil
  | n + 1, some id => by
      rw [upwards]
      cases hm : s.member? id with
      | none => exact List.nodup_nil
      | some m =>
          obtain ⟨later, hlater, habove⟩ := grounded.of_member? hm
          refine List.nodup_cons.2 ⟨fun hmem => ?_, nodup_upwards grounded n m.parent⟩
          obtain ⟨c, hc, hid⟩ := List.mem_map.1 hmem
          refine not_mem_of_upwards grounded hlater habove c hc ?_
          rw [hid, member?_id hm]
          exact List.mem_cons_self

/-- **Where each container is given after the one above it, none is above itself.** -/
theorem acyclic_of_grounded (grounded : Grounded s.outline) : s.Acyclic := by
  intro id
  have hnodup := nodup_upwards grounded s.members.length (some id)
  rw [chain]
  split
  next own ancestors hup => rwa [hup] at hnodup
  next => exact List.nodup_cons.2 ⟨List.not_mem_nil, List.nodup_nil⟩

theorem outline_start (containers : List (String × Option String)) (owner : String)
    (blueprint : Blueprint) (naming : Naming) (evaluation : Evaluation) (shelf : Shelf) :
    (start containers owner blueprint naming evaluation shelf).outline = containers := by
  rw [outline, start, List.map_map]
  exact List.map_id _

/-- What is done in a session leaves its containers where they are. -/
theorem outline_of_reshaped (h : Reshaped s s') : s'.outline = s.outline := by
  obtain ⟨g, hg, members⟩ := h
  rw [outline, members, List.map_map, outline]
  exact List.map_congr_left fun m _ => congrArg (·, m.parent) (hg m.container)

theorem outline_run (s : Session) (entries : List Entry) : (s.run entries).outline = s.outline := by
  induction entries generalizing s with
  | nil => rfl
  | cons e entries ih => exact (ih _).trans (outline_of_reshaped (take_reshapes s e))

end Wiring.Session
