import Wiring.Container.Create
import Wiring.Proofs.Resolver.Attribution

/-!
# Containers — the bean an error tells

An error with a place tells the bean whose value was being resolved, and the argument path.  **It
tells the resolver's own bean, at the path it was asked for or below it, unless the container raised
it while it chose for an injection point of the raw value** (`resolve_attribution`): such an error
comes out as it is, and tells the bean that could not be made (`injected_error_tells_other_bean`).
-/

namespace Wiring

/-- The error tells why a text has no value. -/
inductive Error.AboutText : Error → Prop where
  | expression (text reason : String) : AboutText (.expression text reason)
  | other (message : String) : AboutText (.other message)

namespace Error.AboutText

variable {e : Error}

theorem site? (h : e.AboutText) : e.site? = none := by
  cases h <;> rfl

theorem ne_noSuchBeanOfType (h : e.AboutText) (ty : Ty) : e ≠ .noSuchBeanOfType ty := by
  cases h <;> exact nofun

end Error.AboutText

/-! ### The evaluation of texts -/

namespace Template

theorem lookUp_error {table : Table Value} {whole : String} {key : List Char} {e : Error}
    (h : lookUp table whole key = .error e) : e.AboutText := by
  unfold lookUp at h
  split at h
  · cases h
  · cases h; exact .expression _ _

theorem fill_error {table : Table Value} {whole : String} {e : Error} :
    ∀ {template : Template}, fill table whole template = .error e → e.AboutText
  | .rest _, h => by cases h
  | .unclosed _ _, h => by cases h; exact .expression _ _
  | .hole text key next, h => by
      rw [fill] at h
      split at h
      next hkey => cases h; exact lookUp_error hkey
      next v _ =>
        cases hnext : fill table whole next with
        | ok t => rw [hnext] at h; cases h
        | error e' => rw [hnext] at h; cases h; exact fill_error hnext

theorem map_fill_error {table : Table Value} {whole : String} {template : Template} {e : Error}
    (h : (fill table whole template).map Value.string = .error e) : e.AboutText := by
  cases hfill : fill table whole template with
  | ok t => rw [hfill] at h; cases h
  | error e' => rw [hfill] at h; cases h; exact fill_error hfill

theorem evaluate_error {table : Table Value} {whole : String} {e : Error}
    (h : evaluate table whole = .error e) : e.AboutText := by
  unfold evaluate at h
  split at h
  · split at h
    · exact lookUp_error h
    · exact map_fill_error h
  · cases h

end Template

theorem Evaluation.evaluate_error {how : Evaluation} {table : Table Value} {text : String}
    {e : Error} (h : how.evaluate table text = .error e) : e.AboutText := by
  cases how with
  | placeholders => exact Template.evaluate_error h
  | literal => cases h
  | number =>
      change readNumber text = _ at h
      unfold readNumber at h
      split at h
      · cases h
      · cases h; exact .other _

namespace Chain

variable {make : Maker} {evaluation : Evaluation} {r : Resolver Chain} {P : Error → Chain → Prop}

theorem evaluateText_raises (hr : r.collaborators = collaborators make evaluation)
    (h : ∀ e chain, e.AboutText → P e chain) (text : String) : (r.evaluateText text).Raises P := by
  rw [Resolver.evaluateText, hr]
  refine Action.raises_bind_lift fun chain => ?_
  exact Action.raises_ofExcept fun e he s => h e s (Evaluation.evaluate_error he)

/-- **An error with a place tells the resolver's bean, at its path or below it, unless the container
raised it for an injection point of the raw value**, outside nested blueprints. -/
theorem resolve_attribution {depth : Nat} {evaluation : Evaluation} {r : Resolver Chain}
    (hr : r.collaborators = collaborators (create depth) evaluation) (path : ArgPath) (raw : Raw)
    (chain : Chain) {e : Error} {site : Site}
    (failed : (r.resolve path raw chain).1.outcome = .error (.error e))
    (placed : e.site? = some site) :
    (site.origin = r.origin ∧ ∃ rest, site.arg = path.text ++ rest) ∨
      ∃ d ∈ raw.injectionPoints, ∃ mid,
        (resolveDependency (create depth) d r.bean).run mid =
          (.error (.error e), (r.resolve path raw chain).2) := by
  have within : r.RaisesWithin (fun e after => ∀ site, e.site? = some site →
      (site.origin = r.origin ∧ ∃ rest, site.arg = path.text ++ rest) ∨
      ∃ d ∈ raw.injectionPoints, ∃ mid,
        (resolveDependency (create depth) d r.bean).run mid = (.error (.error e), after))
      path raw.injectionPoints := by
    refine ⟨?_, ?_, ?_⟩
    · intro e path' here below after site hsite
      rw [here] at hsite
      cases hsite
      exact .inl ⟨rfl, below⟩
    · refine evaluateText_raises hr fun e after htext site hsite => ?_
      rw [htext.site?] at hsite
      cases hsite
    · -- the container's error is passed on: it is its own proof of where it came from
      intro d hd mid
      rw [hr]
      change Within _ ((resolveDependency (create depth) d r.bean).run mid).1
        ((resolveDependency (create depth) d r.bean).run mid).2
      rcases hrun : (resolveDependency (create depth) d r.bean).run mid with ⟨(e | _) | _, after⟩
      · exact fun site _ => .inr ⟨d, hd, mid, hrun⟩
      · exact trivial
      · exact trivial
  have hraised := Resolver.resolve_raises (.refl path) raw within chain
  rw [failed] at hraised
  exact hraised site placed

/-- In a map in a list, the path of the error is that of the value. -/
theorem resolve_attribution_of_nested :
    let owner : Blueprint := {
      id := 1, className := none, scope := .singleton, dependsOn := [], synthetic := false
      resource := some "beans.xml", args := [], properties := [] }
    let r : Resolver Chain := ⟨collaborators (create 1), "owner", owner, {}⟩
    let raw : Raw := .list [.null, .map [
      (.literal { text := some "k" }, .reference { target := .name "missing" })]]
    let e : Error := .reference ⟨⟨"owner", some "beans.xml"⟩, "p[1][k]"⟩ "missing"
      (.noSuchBean "missing")
    (r.resolve (.root "p") raw ⟨{ id := "main" }, []⟩).1.outcome = .error (.error e) ∧
      (⟨"owner", some "beans.xml"⟩ : Origin) = r.origin ∧ ∃ rest, "p[1][k]" = "p" ++ rest := by
  intro owner r raw e
  have failed : (r.resolve (.root "p") raw ⟨{ id := "main" }, []⟩).1.outcome = .error (.error e) :=
    Stop.eq_of_error? (by decide +kernel)
  have hr : r.collaborators = collaborators (create 1) .placeholders := rfl
  refine ⟨failed, ?_⟩
  obtain ⟨own, below⟩ | ⟨d, hd, -⟩ := resolve_attribution hr _ raw _ failed rfl
  · exact ⟨own, below⟩
  · cases hd

/-- The error of a bean that is made for an injection point tells that bean and its argument, and
not the bean the value is resolved for. -/
theorem injected_error_tells_other_bean :
    let svc : Blueprint := {
      id := 1, className := some "T", scope := .singleton, dependsOn := [], synthetic := false
      resource := none, args := [.reference { target := .name "missing" }], properties := [] }
    let owner : Blueprint := {
      id := 2, className := none, scope := .singleton, dependsOn := [], synthetic := false
      resource := none, args := [], properties := [] }
    let r : Resolver Chain := ⟨collaborators (create 1), "owner", owner, {}⟩
    let chain : Chain := ⟨{ id := "main" : Container }.registerBlueprint "svc" svc, []⟩
    ∃ e site, (r.resolve (.root "p") (.dependency ⟨"x", .named "T", true⟩) chain).1.outcome =
        .error (.error e) ∧
      e.site? = some site ∧ site.origin ≠ r.origin ∧ ¬ ∃ rest, site.arg = "p" ++ rest := by
  intro svc owner r chain
  refine ⟨.reference ⟨⟨"svc", none⟩, "constructor argument with index 0"⟩ "missing"
    (.noSuchBean "missing"), _, Stop.eq_of_error? (by decide +kernel), rfl, by decide, ?_⟩
  -- the argument of the other bean starts with another letter
  rintro ⟨rest, h⟩
  have hchars := congrArg String.toList h
  rw [String.toList_append] at hchars
  cases hchars

end Chain

end Wiring
