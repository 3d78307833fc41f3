import Wiring.Proofs.Container.Wires
import Wiring.Proofs.Session.Along

/-!
# Sessions — the edges of the objects made

Each object that is made is noted in the history of its container when it is made.
`Container.Documented` is the invariant: **each note tells of an object that was made then, and the
container has the edges of that moment**.  With the edges of a single object (`Chain.create_wires`)
it follows that a container has, after every run, the edges of all objects made in it
(`made_objects_are_wired`).
-/

namespace Wiring

namespace Event

/-- The blueprint of an object that was made for the name. -/
def made? (name : String) : Event → Option Blueprint
  | made other b => if other = name then some b else none
  | _ => none

theorem eq_made {name : String} {b : Blueprint} {e : Event} (h : e.made? name = some b) :
    e = .made name b := by
  cases e with
  | made other b' =>
      rw [made?] at h
      split at h
      next heq => rw [heq, Option.some.inj h]
      next => cases h
  | _ => cases h

end Event

namespace Container

/-- The object was made here when it was noted, after the events before, and the container has the
edges it had then. -/
def MadeAfter (c : Container) (before : List Event) (name : String) (b : Blueprint) : Prop :=
  ∃ depth start node bean final,
    Chain.create (depth + 1) name b start = (⟨node, .ok bean⟩, final) ∧
      final.own.id = c.id ∧ final.own.history = before ++ [.made name b] ∧ final.own.KeepsEdges c

/-- Each object noted as made was made when it was noted. -/
def Documented (c : Container) : Prop :=
  ∀ (before : List Event) (name : String) (b : Blueprint),
    before ++ [.made name b] <+: c.history → c.MadeAfter before name b

/-- The history and the edges are extended, and each object that is noted is documented. -/
structure Builds (c c' : Container) : Prop where
  id : c'.id = c.id
  history : c.history <+: c'.history
  edges : c.KeepsEdges c'
  documented (h : c.Documented) : c'.Documented

variable {a b c c' : Container}

theorem KeepsEdges.refl (c : Container) : c.KeepsEdges c :=
  ⟨fun _ => List.prefix_refl _, fun _ => List.prefix_refl _⟩

theorem MadeAfter.mono {before : List Event} {name : String} {blueprint : Blueprint}
    (h : a.MadeAfter before name blueprint) (id : b.id = a.id) (edges : a.KeepsEdges b) :
    b.MadeAfter before name blueprint := by
  obtain ⟨depth, start, node, bean, final, hcreate, hid, hnoted, hedges⟩ := h
  exact ⟨depth, start, node, bean, final, hcreate, hid.trans id.symm, hnoted, hedges.trans edges⟩

namespace Builds

theorem refl (c : Container) : c.Builds c := ⟨rfl, List.prefix_refl _, .refl c, fun h => h⟩

theorem trans (h : a.Builds b) (h' : b.Builds c) : a.Builds c :=
  ⟨h'.id.trans h.id, h.history.trans h'.history, h.edges.trans h'.edges,
    fun ha => h'.documented (h.documented ha)⟩

instance : IsPreorder Container Builds where
  refl := Builds.refl
  trans _ _ _ := Builds.trans

/-- A change without an event that keeps the edges. -/
theorem of_edges (id : b.id = a.id) (history : b.history = a.history) (edges : a.KeepsEdges b) :
    a.Builds b :=
  ⟨id, history ▸ List.prefix_refl _, edges, fun h before name blueprint hmade =>
    (h before name blueprint (history ▸ hmade)).mono id edges⟩

/-- A change of neither the history nor the edges. -/
theorem of_eq (id : b.id = a.id) (history : b.history = a.history)
    (dependents : b.dependents = a.dependents) (contained : b.contained = a.contained) :
    a.Builds b :=
  of_edges id history
    ⟨fun _ => dependents ▸ List.prefix_refl _, fun _ => contained ▸ List.prefix_refl _⟩

end Builds

theorem keepsEdges_note (c : Container) (e : Event) : c.KeepsEdges (c.note e) :=
  (grows_note c e).keepsEdges

/-- An event of another kind tells of no object. -/
theorem builds_note (c : Container) (e : Event) (h : ∀ name b, e ≠ .made name b) :
    c.Builds (c.note e) := by
  have edges := keepsEdges_note c e
  refine ⟨rfl, List.prefix_append _ _, edges, fun documented before name b hmade => ?_⟩
  rcases List.prefix_concat_iff.1 hmade with heq | hmade
  · have hlast := congrArg List.getLast? heq
    rw [List.getLast?_concat, List.getLast?_concat] at hlast
    exact absurd (Option.some.inj hlast).symm (h name b)
  · exact (documented before name b hmade).mono rfl edges

/-- An object that is made is documented by its own making. -/
theorem builds_made {depth : Nat} {name : String} {b node : Blueprint} {bean : Managed}
    {start final : Chain} (h : Chain.create depth name b start = (⟨node, .ok bean⟩, final))
    (noted : final.own = c.note (.made name b)) : c.Builds final.own := by
  cases depth with
  | zero => cases h
  | succ depth =>
      have edges : c.KeepsEdges final.own := noted ▸ keepsEdges_note c _
      refine ⟨noted ▸ rfl, noted ▸ List.prefix_append _ _, edges,
        fun documented before name' b' hmade => ?_⟩
      have hhistory : final.own.history = c.history ++ [.made name b] := noted ▸ rfl
      rw [hhistory] at hmade
      rcases List.prefix_concat_iff.1 hmade with hlast | hearlier
      · obtain ⟨rfl, hevent⟩ := List.append_inj' hlast rfl
        cases hevent
        exact ⟨depth, start, node, bean, final, h, rfl, hhistory, .refl _⟩
      · exact (documented before name' b' hearlier).mono (noted ▸ rfl) edges

theorem builds_keep (c : Container) (name : String) (b : Blueprint) (bean : Managed) :
    c.Builds (c.keep name b bean) := by
  rw [keep_eq]
  exact .of_eq rfl rfl rfl rfl

theorem builds_conclude {name : String} {b : Blueprint} {bean : Option Managed}
    (h : (c.note (.began name)).Builds c') : c.Builds (c'.conclude name b bean) := by
  have hbegan : c.Builds c' := (builds_note c (.began name) fun _ _ => nofun).trans h
  refine hbegan.trans ?_
  cases bean with
  | none => exact builds_note c' _ fun _ _ => nofun
  | some bean => exact (builds_keep c' name b bean).trans (builds_note _ _ fun _ _ => nofun)

theorem builds_register {name : String} (id : b.id = a.id) (history : b.history = a.history)
    (dependents : b.dependents = a.dependents) (contained : b.contained = a.contained) :
    a.Builds (b.note (.registered name)) :=
  (Builds.of_eq id history dependents contained).trans (builds_note b _ fun _ _ => nofun)

end Container

namespace Session

open Container

theorem stepAlong_builds : StepAlong Builds where
  registerDependent c x y := .of_edges rfl rfl (grows_registerDependent c x y).keepsEdges
  registerContained c inner owner :=
    .of_edges rfl rfl (grows_registerContained c inner owner).keepsEdges
  claim c name owner free := .of_edges rfl rfl (workAlong_grows.claim c name owner free).keepsEdges
  begin _ _ := .of_eq rfl rfl rfl rfl
  newObject _ _ := .of_eq rfl rfl rfl rfl
  unwrap _ _ _ := .of_eq rfl rfl rfl rfl
  learn c name left := by
    rw [learn_eq]
    exact .of_eq rfl rfl rfl rfl
  found c name bean _ := builds_note c (.found name bean) fun _ _ => nofun
  conclude h _ _ _ := builds_conclude h
  made := builds_made
  id h := h.id
  registerBlueprint c name b := by
    rw [registerBlueprint]
    split <;> exact builds_register rfl rfl rfl rfl
  registerSingleton c name v := by
    unfold registerSingleton
    split <;> exact builds_register rfl rfl rfl rfl
  registerNull _ _ := builds_register rfl rfl rfl rfl
  registerType _ _ := .of_eq rfl rfl rfl rfl
  registerAlias _ _ _ := builds_register rfl rfl rfl rfl
  reportStaleCandidate _ _ := .of_eq rfl rfl rfl rfl
  definePlaceholder _ _ _ := .of_eq rfl rfl rfl rfl
  refresh _ _ _ := .of_eq rfl rfl rfl rfl

/-- In a new container nothing has been made. -/
theorem documented_start {containers : List (String × Option String)} {owner : String}
    {blueprint : Blueprint} {naming : Naming} {evaluation : Evaluation} {shelf : Shelf}
    {id : String} {m : Member}
    (h : (start containers owner blueprint naming evaluation shelf).member? id = some m) :
    m.container.Documented := by
  obtain ⟨⟨new, parent⟩, -, rfl⟩ := List.mem_map.1 (List.mem_of_find?_eq_some h)
  rintro before name b hmade
  exact absurd (List.prefix_nil.1 hmade) (by simp)

/-- The invariant holds in every container after every run. -/
theorem documented_run (containers : List (String × Option String)) (owner : String)
    (blueprint : Blueprint) (naming : Naming) (evaluation : Evaluation) (shelf : Shelf)
    (entries : List Entry) {id : String} {m : Member}
    (h : ((start containers owner blueprint naming evaluation shelf).run entries).member? id =
      some m) : m.container.Documented := by
  have hkeeps := run_keeps stepAlong_builds entries
    (start containers owner blueprint naming evaluation shelf)
  obtain ⟨new, hnew, builds⟩ := hkeeps.earlier h
  exact builds.documented (documented_start hnew)

/-- **A container has the edges of all objects made in it.**  An object that is made is noted at the
end of the container's history; the leaves of its blueprint are resolved one after the other, each
occurrence by itself, and it has the edges of each.  The history is only extended, by the rest of the
work and by the rest of the run; and for each object noted in the history that a container has after
a run, there is the making in it that was noted then, and the container has the edges of all its
leaves. -/
theorem made_objects_are_wired :
    (∀ depth name b start node bean final,
      Chain.create (depth + 1) name b start = (⟨node, .ok bean⟩, final) →
      (∃ before, final.own.history = before ++ [.made name b]) ∧
        ∃ vs, OneByOne (Chain.Each Continues) (Chain.WiredLeaf depth name b start final.own)
          b.leaves vs start final) ∧
    (∀ depth evaluation (r : Resolver Chain) path raw chain,
      r.collaborators = Chain.collaborators (Chain.create depth) evaluation →
      Chain.Each (fun c c' => c.history <+: c'.history) chain (r.resolve path raw chain).2) ∧
    (∀ (s : Session) xs ys id m, (s.run xs).member? id = some m →
      ∃ m', (s.run (xs ++ ys)).member? id = some m' ∧
        m.container.history <+: m'.container.history) ∧
    ∀ containers owner blueprint naming evaluation shelf entries id m before name b,
      ((start containers owner blueprint naming evaluation shelf).run entries).member? id =
        some m →
      before ++ [.made name b] <+: m.container.history →
      ∃ depth start node bean final,
        Chain.create (depth + 1) name b start = (⟨node, .ok bean⟩, final) ∧
        final.own.id = id ∧ final.own.history = before ++ [.made name b] ∧
        final.own.KeepsEdges m.container ∧
        ∃ vs, OneByOne (Chain.Each Continues) (Chain.WiredLeaf depth name b start m.container)
          b.leaves vs start final := by
  refine ⟨?_, ?_, ?_, ?_⟩
  · intro depth name b start node bean final h
    exact ⟨Chain.create_noted h, Chain.create_wires h⟩
  · intro depth evaluation r path raw chain hr
    have hcontinues := Resolver.resolve_along (Chain.goesAlong workAlong_continues
      (Chain.create_along workAlong_continues depth) hr) path raw chain
    exact hcontinues.imp fun h => h.history
  · intro s xs ys id m h
    obtain ⟨m', hm', builds⟩ := (run_keeps stepAlong_builds ys (s.run xs)).later h
    rw [run_append]
    exact ⟨m', hm', builds.history⟩
  · intro containers owner blueprint naming evaluation shelf entries id m before name b h hmade
    have documented := documented_run containers owner blueprint naming evaluation shelf entries h
    obtain ⟨depth, start, node, bean, final, hcreate, hid, hnoted, edges⟩ :=
      documented before name b hmade
    obtain ⟨vs, leaves⟩ := Chain.create_wires hcreate
    exact ⟨depth, start, node, bean, final, hcreate, hid.trans (member?_id h), hnoted, edges, vs,
      leaves.imp (Chain.WiredLeaf.mono edges)⟩

/-- An object with a bean in a map in a list, an injection point and the same nested blueprint twice,
made by itself and in a run. -/
theorem made_objects_are_wired_of_nested :
    let dep : Blueprint := {
      id := 1, className := some "D", scope := .singleton, dependsOn := [], synthetic := false
      resource := none, args := [], properties := [] }
    let part : Blueprint := { dep with id := 2, className := some "P", dependsOn := ["dep"] }
    let b : Blueprint := { dep with
      id := 3, className := some "N"
      args := [
        .list [.map [(.literal { text := some "k" }, .reference { target := .name "dep" })]],
        .dependency ⟨"x", .named "D", true⟩]
      properties := [("part", .nested 0 part), ("other", .nested 0 part)] }
    let s := Session.start [("main", none)] "owner" dep
    let entries : List Entry := [
      { container := "main", step := .registerBlueprint "dep" dep },
      { container := "main", step := .registerBlueprint "n" b },
      { container := "main", step := .getByName "n" }]
    let chain := (s.run (entries.take 1)).chain "main"
    let r : Resolver Chain := ⟨Chain.collaborators (Chain.create 1), "owner", b, {}⟩
    (∃ node bean final, Chain.create 3 "n" b chain = (⟨node, .ok bean⟩, final) ∧
      (∃ before, final.own.history = before ++ [.made "n" b]) ∧
      (final.own.contained.targets "n").length = 2 ∧
      ∃ vs, OneByOne (Chain.Each Continues) (Chain.WiredLeaf 2 "n" b chain final.own) b.leaves vs
        chain final) ∧
    Chain.Each (fun c c' => c.history <+: c'.history) chain
      (r.resolve (.root "p") (.reference { target := .name "dep" }) chain).2 ∧
    ∃ m, (s.run entries).member? "main" = some m ∧
      (∃ before b' depth start node bean final vs, b'.leaves.length = 5 ∧
        Chain.create (depth + 1) "n" b' start = (⟨node, .ok bean⟩, final) ∧
        final.own.id = "main" ∧ final.own.history = before ++ [.made "n" b'] ∧
        final.own.KeepsEdges m.container ∧
        OneByOne (Chain.Each Continues) (Chain.WiredLeaf depth "n" b' start m.container)
          b'.leaves vs start final) ∧
      ∃ m', (s.run (entries ++ entries)).member? "main" = some m' ∧
        m.container.history <+: m'.container.history := by
  intro dep part b s entries chain r
  refine ⟨?_, made_objects_are_wired.2.1 1 .placeholders r _ _ chain rfl, ?_⟩
  · have hok : (Chain.create 3 "n" b chain).1.outcome.toOption.isSome ∧
        ((Chain.create 3 "n" b chain).2.own.contained.targets "n").length = 2 := by
      decide +kernel
    rcases hrun : Chain.create 3 "n" b chain with ⟨⟨node, outcome⟩, final⟩
    rw [hrun] at hok
    obtain ⟨bean, hbean⟩ := Option.isSome_iff_exists.1 hok.1
    obtain rfl : outcome = .ok bean := ok_of_toOption hbean
    obtain ⟨noted, wired⟩ := made_objects_are_wired.1 2 "n" b chain node bean final hrun
    exact ⟨node, bean, final, rfl, noted, hok.2, wired⟩
  · have hrun : ((s.run entries).member? "main").map (fun m =>
        (m.container.history.filterMap (Event.made? "n")).map fun b' => b'.leaves.length) =
        some [5] := by
      decide +kernel
    obtain ⟨m, hm, hleaves⟩ := Option.map_eq_some_iff.1 hrun
    refine ⟨m, hm, ?_, made_objects_are_wired.2.2.1 s entries entries "main" m hm⟩
    obtain ⟨b', hb', hlength⟩ := List.mem_map.1 (hleaves ▸ List.mem_singleton_self 5)
    obtain ⟨e, he, hmade⟩ := List.mem_filterMap.1 hb'
    obtain rfl := Event.eq_made hmade
    obtain ⟨before, rest, hhistory⟩ := List.append_of_mem he
    obtain ⟨depth, start, node, bean, final, hcreate, hid, hnoted, edges, vs, leaves⟩ :=
      made_objects_are_wired.2.2.2 _ _ _ _ _ _ entries "main" m before "n" b' hm
        ⟨rest, by rw [hhistory, List.append_assoc]; rfl⟩
    exact ⟨before, b', depth, start, node, bean, final, vs, hlength, hcreate, hid, hnoted, edges,
      leaves⟩

end Session

end Wiring
