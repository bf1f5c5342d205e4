import SeededTesting.Proofs.Run.RuleMoments

/-! # Rules around a body

Whatever the rules of a suite and a test body do, the wrappers nest in the order of the rules. An
error that is raised anywhere in the nest is heard of by the wrappers around, from the innermost one
outwards, until one of them swallows it; it leaves the nest if none does.
-/

namespace SeededTesting

/-! ## Who hears of an error -/

/-- The places of the wrappers that hear of an error, outwards from a place: up to the first one
that swallows it. -/
def Rule.hearers {Code : Type} : (place : Nat) → List (Rule Code) → List Nat
  | _, [] => []
  | place, rule :: outer => place :: if rule.swallow then [] else hearers (place + 1) outer

/-- An error that is raised at a level is swallowed by one of the wrappers around; an interrupt
never is. -/
def Rule.Swallowed {Code : Type} (rules : List (Rule Code)) (level : Nat) (interrupt : Bool) :
    Prop :=
  interrupt = false ∧ ∃ rule ∈ rules.drop level, rule.swallow = true

namespace RuleMoment

variable {Code : Type}

def isCaught : RuleMoment → Bool
  | .caught .. => true
  | _ => false

/-- What the wrappers hear of a moment: of errors only, from the innermost wrapper outwards. -/
def hearings (rules : List (Rule Code)) : RuleMoment → List RuleMoment
  | .raised level e false => (Rule.hearers level (rules.drop level)).map (.caught · e)
  | _ => []

def withHearings (rules : List (Rule Code)) (m : RuleMoment) : List RuleMoment :=
  m :: m.hearings rules

/-- What is done, without what is heard. -/
def doings (ms : List RuleMoment) : List RuleMoment :=
  ms.filter fun m => !m.isCaught

@[simp] theorem doings_append (ms ns : List RuleMoment) :
    doings (ms ++ ns) = doings ms ++ doings ns :=
  List.filter_append ..

theorem mem_doings_raised {ms : List RuleMoment} {level : Nat} {e : ErrorId} {interrupt : Bool} :
    .raised level e interrupt ∈ doings ms ↔ .raised level e interrupt ∈ ms := by
  simp [doings, isCaught]

/-- All errors that are raised are swallowed. -/
def AllSwallowed (rules : List (Rule Code)) (ms : List RuleMoment) : Prop :=
  ∀ level e interrupt, .raised level e interrupt ∈ ms → Rule.Swallowed rules level interrupt

end RuleMoment

namespace Rule

variable {Code : Type} {rules outer : List (Rule Code)} {rule : Rule Code} {level : Nat}
  {interrupt : Bool}

theorem hearers_snoc_of_swallow (h : ∃ inner ∈ outer, inner.swallow = true) (place : Nat) :
    hearers place (outer ++ [rule]) = hearers place outer := by
  induction outer generalizing place with
  | nil => simp at h
  | cons inner outer ih =>
      by_cases hinner : inner.swallow = true
      · simp [hearers, hinner]
      · have houter : ∃ inner ∈ outer, inner.swallow = true := by simpa [hinner] using h
        simp [hearers, hinner, ih houter]

theorem hearers_snoc (h : ¬∃ inner ∈ outer, inner.swallow = true) (place : Nat) :
    hearers place (outer ++ [rule]) = hearers place outer ++ [place + outer.length] := by
  induction outer generalizing place with
  | nil => simp [hearers]
  | cons inner outer ih =>
      simp only [List.exists_mem_cons_iff, not_or] at h
      simp only [List.cons_append, hearers, if_neg h.1, ih h.2, List.length_cons]
      rw [Nat.add_right_comm, Nat.add_assoc]

theorem Swallowed.level_lt (h : Swallowed rules level interrupt) : level < rules.length := by
  obtain ⟨-, rule, hrule, -⟩ := h
  have := List.length_pos_of_mem hrule
  rw [List.length_drop] at this
  omega

/-- A wrapper around the others leaves what these swallow. -/
theorem Swallowed.widen (h : Swallowed rules level interrupt) (rule : Rule Code) :
    Swallowed (rules ++ [rule]) level interrupt := by
  have hle := Nat.le_of_lt h.level_lt
  obtain ⟨hkind, inner, hmem, hswallow⟩ := h
  refine ⟨hkind, inner, ?_, hswallow⟩
  rw [List.drop_append_of_le_length hle]
  exact List.mem_append_left _ hmem

/-- What leaves the others is swallowed by the wrapper around them, if it swallows anything. -/
theorem swallowed_snoc_iff (hlevel : level ≤ rules.length)
    (h : ¬Swallowed rules level false) :
    Swallowed (rules ++ [rule]) level false ↔ rule.swallow = true := by
  have hnone : ∀ inner ∈ rules.drop level, inner.swallow ≠ true := fun inner hmem hswallow =>
    h ⟨rfl, inner, hmem, hswallow⟩
  rw [Swallowed, List.drop_append_of_le_length hlevel]
  constructor
  · rintro ⟨-, inner, hmem, hswallow⟩
    rcases List.mem_append.mp hmem with hmem | hmem
    · exact absurd hswallow (hnone inner hmem)
    · rwa [List.mem_singleton.mp hmem] at hswallow
  · intro hswallow
    exact ⟨rfl, rule, by simp, hswallow⟩

end Rule

namespace RuleMoment

open Rule

variable {Code : Type} {rules : List (Rule Code)} {ms : List RuleMoment} {level : Nat}
  {e : ErrorId}

theorem AllSwallowed.widen (h : AllSwallowed rules ms) (rule : Rule Code) :
    AllSwallowed (rules ++ [rule]) ms :=
  fun level e interrupt hmem => (h level e interrupt hmem).widen rule

/-- A wrapper around the others does not hear of what these swallow. -/
theorem AllSwallowed.flatMap_withHearings (h : AllSwallowed rules ms) (rule : Rule Code) :
    ms.flatMap (withHearings (rules ++ [rule])) = ms.flatMap (withHearings rules) := by
  apply List.flatMap_congr
  intro m hm
  match m with
  | .raised level e true => rfl
  | .raised level e false =>
      have hswallowed := h level e false hm
      have hle := Nat.le_of_lt hswallowed.level_lt
      simp only [withHearings, hearings, List.drop_append_of_le_length hle,
        hearers_snoc_of_swallow hswallowed.2]
  | .applied _ | .entered _ | .called | .caught .. | .left _ => rfl

/-- A wrapper around the others is the last one to hear of what leaves them. -/
theorem hearings_snoc (hlevel : level ≤ rules.length) (h : ¬Swallowed rules level false)
    (rule : Rule Code) :
    (raised level e false).hearings (rules ++ [rule]) =
      (raised level e false).hearings rules ++ [.caught rules.length e] := by
  have hnone : ¬∃ inner ∈ rules.drop level, inner.swallow = true := fun hsome => h ⟨rfl, hsome⟩
  have hplace : level + (rules.length - level) = rules.length := by omega
  simp only [hearings, List.drop_append_of_le_length hlevel, hearers_snoc hnone, List.map_append,
    List.length_drop, hplace, List.map_cons, List.map_nil]

end RuleMoment

/-! ## How errors leave a nest -/

open RuleMoment

/-- What is told of a statement within wrappers, against how it ends: each error is heard of as far
as it goes, and it is the last one that leaves, if any does. -/
structure Unwinds (rules : List (Rule Procedure)) (ms : List RuleMoment)
    (result : Except ErrorId Unit × World) : Prop where
  unapplied : ∀ place, .applied place ∉ ms
  heard : ms = (doings ms).flatMap (withHearings rules)
  swallowed : result.1 = .ok () → AllSwallowed rules ms
  leaves : ∀ e, result.1 = .error e → ∃ before level,
    doings ms = before ++ [.raised level e (result.2.errors.get e).kind.interrupt] ∧
      level ≤ rules.length ∧ AllSwallowed rules before ∧
        ¬Rule.Swallowed rules level (result.2.errors.get e).kind.interrupt

namespace Unwinds

variable {rules : List (Rule Procedure)} {ms ns : List RuleMoment} {v : World}
  {result : Except ErrorId Unit × World}

theorem nil : Unwinds rules [] (.ok (), v) where
  unapplied _ := List.not_mem_nil
  heard := rfl
  swallowed _ _ _ _ hmem := nomatch hmem
  leaves _ h := nomatch h

/-- A wrapper that is entered or left, or a call. -/
theorem plain {m : RuleMoment} (hm : doings [m] = [m]) (hheard : m.hearings rules = [])
    (hraised : ∀ level e interrupt, m ≠ .raised level e interrupt)
    (happlied : ∀ place, m ≠ .applied place) : Unwinds rules [m] (.ok (), v) where
  unapplied place hmem := happlied place (List.mem_singleton.mp hmem).symm
  heard := by simp [hm, withHearings, hheard]
  swallowed _ level e interrupt hmem :=
    absurd (List.mem_singleton.mp hmem).symm (hraised level e interrupt)
  leaves _ h := nomatch h

theorem append (hms : Unwinds rules ms (.ok (), v)) (hns : Unwinds rules ns result) :
    Unwinds rules (ms ++ ns) result where
  unapplied place hmem :=
    (List.mem_append.mp hmem).elim (hms.unapplied place) (hns.unapplied place)
  heard := by
    rw [doings_append, List.flatMap_append, ← hms.heard, ← hns.heard]
  swallowed hok level e interrupt hmem :=
    (List.mem_append.mp hmem).elim (hms.swallowed rfl level e interrupt)
      (hns.swallowed hok level e interrupt)
  leaves e he := by
    obtain ⟨before, level, hdoings, hlevel, hbefore, hleaves⟩ := hns.leaves e he
    refine ⟨doings ms ++ before, level, ?_, hlevel, ?_, hleaves⟩
    · rw [doings_append, hdoings, List.append_assoc]
    · intro level e interrupt hmem
      rcases List.mem_append.mp hmem with hmem | hmem
      · exact hms.swallowed rfl level e interrupt (mem_doings_raised.mp hmem)
      · exact hbefore level e interrupt hmem

/-- A wrapper around the others hears nothing if only interrupts leave these. -/
theorem widen (h : Unwinds rules ms result) (rule : Rule Procedure)
    (hpasses : ∀ e, result.1 = .error e → (result.2.errors.get e).kind.interrupt = true) :
    Unwinds (rules ++ [rule]) ms result where
  unapplied := h.unapplied
  heard := by
    refine h.heard.trans ?_
    rcases hout : result.1 with e | _
    · obtain ⟨before, level, hdoings, -, hbefore, -⟩ := h.leaves e hout
      rw [hdoings, hpasses e hout, List.flatMap_append, List.flatMap_append,
        hbefore.flatMap_withHearings rule]
      rfl
    · refine (AllSwallowed.flatMap_withHearings ?_ rule).symm
      exact fun level e interrupt hmem =>
        h.swallowed hout level e interrupt (mem_doings_raised.mp hmem)
  swallowed hok := (h.swallowed hok).widen rule
  leaves e he := by
    obtain ⟨before, level, hdoings, hlevel, hbefore, -⟩ := h.leaves e he
    refine ⟨before, level, hdoings, ?_, hbefore.widen rule, ?_⟩
    · rw [List.length_append]
      exact Nat.le_add_right_of_le hlevel
    · rintro ⟨hkind, -⟩
      rw [hpasses e he] at hkind
      cases hkind

/-- A wrapper around the others hears of an error that leaves these, and swallows it or not. -/
theorem caught {e : ErrorId} (h : Unwinds rules ms (.error e, v))
    (hkind : (v.errors.get e).kind.interrupt = false) (rule : Rule Procedure)
    (hending : result.1 = if rule.swallow then .ok () else .error e)
    (herrors : result.2.errors = v.errors) :
    Unwinds (rules ++ [rule]) (ms ++ [.caught rules.length e]) result := by
  obtain ⟨before, level, hdoings, hlevel, hbefore, hleaves⟩ := h.leaves e rfl
  rw [hkind] at hdoings hleaves
  have hall : doings (ms ++ [.caught rules.length e]) = before ++ [.raised level e false] := by
    rw [doings_append, hdoings]
    exact List.append_nil _
  -- The error has left all rules so far, so it is swallowed by this one or not at all.
  have hwide : Rule.Swallowed (rules ++ [rule]) level false ↔ rule.swallow = true :=
    Rule.swallowed_snoc_iff hlevel hleaves
  refine ⟨fun place hmem => ?_, ?_, fun hok => ?_, fun e' he' => ?_⟩
  · rw [List.mem_append, List.mem_singleton] at hmem
    exact hmem.elim (h.unapplied place) nofun
  · have hms : ms = before.flatMap (withHearings rules) ++
        (.raised level e false :: (raised level e false).hearings rules) := by
      rw [h.heard, hdoings, List.flatMap_append]
      simp [withHearings]
    rw [hall, List.flatMap_append, hbefore.flatMap_withHearings rule, hms, List.append_assoc]
    simp [withHearings, hearings_snoc hlevel hleaves]
  · have hswallow : rule.swallow = true := by
      by_contra hnot
      rw [hending, if_neg hnot] at hok
      cases hok
    intro level' e' interrupt hmem
    rw [← mem_doings_raised, hall, List.mem_append, List.mem_singleton] at hmem
    rcases hmem with hmem | hmem
    · exact (hbefore level' e' interrupt hmem).widen rule
    · cases hmem
      exact hwide.mpr hswallow
  · have hnot : ¬rule.swallow = true := by
      intro hswallow
      rw [hending, if_pos hswallow] at he'
      cases he'
    rw [hending, if_neg hnot] at he'
    cases he'
    rw [herrors, hkind]
    refine ⟨before, level, hall, ?_, hbefore.widen rule, fun hswallowed => ?_⟩
    · rw [List.length_append]
      exact Nat.le_add_right_of_le hlevel
    · exact hnot (hwide.mp hswallowed)

end Unwinds

namespace TracedRules

/-- Wherever a statement starts, errors leave it as they do a nest of these wrappers. -/
def UnwindsIn (rules : List (Rule Procedure)) (body : TracedRules Unit) : Prop :=
  ∀ w, Unwinds rules (body.moments w) (body.exec w)

namespace UnwindsIn

variable {rules : List (Rule Procedure)} {body next : TracedRules Unit}

theorem bind (hbody : UnwindsIn rules body) (hnext : UnwindsIn rules next) :
    UnwindsIn rules (body >>= fun _ => next) := by
  intro w
  have hfirst := hbody w
  rcases hout : body.exec w with ⟨e | _, v⟩
  · rw [hout] at hfirst
    rw [Traced.moments_bind_of_error hout, Traced.exec_bind, hout]
    exact hfirst
  · rw [hout] at hfirst
    rw [Traced.moments_bind_of_ok hout, Traced.exec_bind, hout]
    exact hfirst.append (hnext v)

/-- What is done outside of all wrappers. -/
theorem raising (rules : List (Rule Procedure)) (action : Act Unit) :
    UnwindsIn rules (.raising rules.length action) := by
  intro w
  rcases hout : action.exec w with ⟨e | _, v⟩
  · have hmoments : (TracedRules.raising rules.length action).moments w =
        [.raised rules.length e (v.errors.get e).kind.interrupt] := by
      simp only [TracedRules.raising, hout]
    have hexec : (TracedRules.raising rules.length action).exec w = (.error e, v) := hout
    rw [hmoments, hexec]
    refine ⟨fun place hmem => ?_, ?_, fun hok => ?_, ?_⟩
    · cases List.mem_singleton.mp hmem
    · cases hkind : (v.errors.get e).kind.interrupt <;>
        simp [doings, isCaught, withHearings, hearings, Rule.hearers]
    · cases hok
    · rintro _ ⟨⟩
      refine ⟨[], rules.length, rfl, Nat.le_refl _, ?_, fun hswallowed => ?_⟩
      · intro _ _ _ hmem
        cases hmem
      · exact absurd hswallowed.level_lt (Nat.lt_irrefl _)
  · have hmoments : (TracedRules.raising rules.length action).moments w = [] := by
      simp only [TracedRules.raising, hout]
    have hexec : (TracedRules.raising rules.length action).exec w = (.ok (), v) := hout
    rw [hmoments, hexec]
    exact .nil

end UnwindsIn
end TracedRules

namespace Rule

open TracedRules

variable {rules : List (Rule Procedure)} {statement : TracedRules Unit}

theorem unwindsIn_repeated (h : UnwindsIn rules statement) (times : Nat) :
    UnwindsIn rules (tracedRepeated statement times) := by
  induction times with
  | zero => exact fun _ => .nil
  | succ times ih => exact h.bind ih

theorem unwindsIn_inner (h : UnwindsIn rules statement) (rule : Rule Procedure) :
    UnwindsIn (rules ++ [rule]) (rule.tracedInner rules.length statement) := by
  intro w
  have hrepeated := unwindsIn_repeated h rule.times w
  unfold tracedInner
  rcases hout : (tracedRepeated statement rule.times).exec w with ⟨e | _, v⟩
  · rw [hout] at hrepeated
    -- An interrupt passes the wrapper by; of any other error it hears.
    cases hkind : (v.errors.get e).kind.interrupt
    · rw [moments_handle_of_error hout hkind, exec_handle, hout]
      simp only [hkind]
      apply hrepeated.caught hkind rule
      · -- The wrapper throws what it heard of unless it swallows it.
        cases rule.swallow <;> simp [told, Act.exec_whileHandling, Act.exec_bind]
      · cases rule.swallow <;> simp [told, Act.exec_whileHandling, Act.exec_bind]
    · rw [moments_handle_of_interrupt hout hkind, exec_handle, hout]
      simp only [hkind]
      apply hrepeated.widen rule
      rintro _ ⟨⟩
      exact hkind
  · rw [hout] at hrepeated
    rw [moments_handle_of_ok hout, exec_handle, hout]
    exact hrepeated.widen rule fun _ he => nomatch he

/-- One wrapper more around a nest. -/
theorem unwindsIn_around (h : UnwindsIn rules statement) (rule : Rule Procedure) :
    UnwindsIn (rules ++ [rule]) (rule.tracedAround rules.length statement) := by
  have hlevel : (rules ++ [rule]).length = rules.length + 1 := List.length_append
  have hown (action : Act Unit) :
      UnwindsIn (rules ++ [rule]) (.raising (rules.length + 1) action) := by
    rw [← hlevel]
    exact .raising _ action
  have hentered : UnwindsIn (rules ++ [rule])
      (.told (.entered rules.length) (Act.emit (.ruleEntered rule.tag))) :=
    fun _ => .plain rfl rfl nofun nofun
  have hleft : UnwindsIn (rules ++ [rule])
      (.told (.left rules.length) (Act.emit (.ruleLeft rule.tag))) :=
    fun _ => .plain rfl rfl nofun nofun
  exact hentered.bind <| (hown _).bind <| (unwindsIn_inner h rule).bind <| (hown _).bind hleft

theorem unwindsIn_nest (h : UnwindsIn [] statement) (rules : List (Rule Procedure)) :
    UnwindsIn rules (tracedNest rules statement) := by
  induction rules using List.reverseRecOn with
  | nil => exact h
  | append_singleton rules rule ih =>
      rw [tracedNest_snoc]
      exact unwindsIn_around ih rule

end Rule

/-! ## Rules nest -/

/-- What a nest goes through, and how it ends. -/
structure Nests (rules : List (Rule Procedure)) (ms : List RuleMoment)
    (ending : Except ErrorId Unit) : Prop where
  /-- No rule is applied any more. -/
  unapplied : ∀ place, .applied place ∉ ms
  /-- If nothing raises, the last wrapper is around ... around the first one around the body. -/
  course : (∀ level e interrupt, .raised level e interrupt ∉ ms) →
    ms = Rule.course rules ∧ ending = .ok ()
  /-- If nothing raises, the body is called as often as the wrappers multiply it. -/
  calls : (∀ level e interrupt, .raised level e interrupt ∉ ms) →
    ms.count .called = (rules.map (·.times)).prod
  /-- If nothing raises and no wrapper repeats anything, the wrappers are entered from the last
  one to the first one and left the other way round. -/
  once : (∀ level e interrupt, .raised level e interrupt ∉ ms) →
    (∀ rule ∈ rules, rule.times = 1) →
      ms = (List.range rules.length).reverse.map .entered ++
        .called :: (List.range rules.length).map .left
  /-- Right after each error, and at no other time, the wrappers around hear of it from the
  innermost one outwards, up to the first one that swallows it. -/
  heard : ms = (doings ms).flatMap (withHearings rules)
  /-- An error leaves the nest at once if and only if no wrapper around swallows it. -/
  leaves_iff : ∀ before level e interrupt later,
    doings ms = before ++ .raised level e interrupt :: later →
      ((later = [] ∧ ending = .error e) ↔ ¬Rule.Swallowed rules level interrupt)
  /-- Nothing else leaves the nest. -/
  raised : ∀ e, ending = .error e →
    ∃ before level interrupt, doings ms = before ++ [.raised level e interrupt]

theorem Unwinds.leaves_iff {rules : List (Rule Procedure)} {ms : List RuleMoment}
    {result : Except ErrorId Unit × World} (h : Unwinds rules ms result)
    {before later : List RuleMoment} {level : Nat} {e : ErrorId} {interrupt : Bool}
    (hdoings : doings ms = before ++ .raised level e interrupt :: later) :
    (later = [] ∧ result.1 = .error e) ↔ ¬Rule.Swallowed rules level interrupt := by
  constructor
  · rintro ⟨rfl, he⟩
    obtain ⟨before', level', hdoings', -, -, hleaves⟩ := h.leaves e he
    obtain ⟨-, hlast⟩ := List.append_inj' (hdoings.symm.trans hdoings') rfl
    cases hlast
    exact hleaves
  · intro hleaves
    rcases hout : result.1 with e' | _
    · obtain ⟨before', level', hdoings', -, hbefore, -⟩ := h.leaves e' hout
      rcases List.eq_nil_or_concat later with rfl | ⟨later, last, rfl⟩
      · obtain ⟨-, hlast⟩ := List.append_inj' (hdoings.symm.trans hdoings') rfl
        cases hlast
        exact ⟨rfl, rfl⟩
      · -- All but the last one are swallowed.
        rw [hdoings', List.concat_eq_append, ← List.cons_append, ← List.append_assoc] at hdoings
        obtain ⟨rfl, -⟩ := List.append_inj' hdoings rfl
        exact absurd (hbefore level e interrupt (by simp)) hleaves
    · have hmem : .raised level e interrupt ∈ doings ms := by simp [hdoings]
      exact absurd (h.swallowed hout level e interrupt (mem_doings_raised.mp hmem)) hleaves

theorem nests_nest (rules : List (Rule Procedure)) (unit : TestUnit Procedure)
    (target : Instance) (w : World) :
    Nests rules ((Rule.tracedNest rules (unit.tracedCall target)).moments w)
      ((Rule.tracedNest rules (unit.tracedCall target)).exec w).1 := by
  have hcall : TracedRules.RunsAs [.called] (unit.tracedCall target) :=
    (TracedRules.RunsAs.told fun _ => rfl).bind (.raising 0 _)
  have hcourse := Rule.runsAs_nest hcall rules w
  have hcalled : TracedRules.UnwindsIn [] (.told .called (return)) :=
    fun _ => .plain rfl rfl nofun nofun
  have hunwinds := Rule.unwindsIn_nest (hcalled.bind (.raising [] (unit.call target))) rules w
  exact {
    unapplied := hunwinds.unapplied
    course := hcourse
    calls hquiet := by
      rw [(hcourse hquiet).1]
      exact Rule.count_called_course rules
    once hquiet honce := (hcourse hquiet).1.trans (Rule.course_of_once honce)
    heard := hunwinds.heard
    leaves_iff _ _ _ _ _ hdoings := hunwinds.leaves_iff hdoings
    raised e he := by
      obtain ⟨before, level, hdoings, -⟩ := hunwinds.leaves e he
      exact ⟨before, level, _, hdoings⟩ }

/-- Rules are applied in order from a place on, and no more of them after one that raises. -/
theorem Rule.moments_tracedApplyEach (unit : String) (target : Instance) (place : Nat)
    (rules : List (Rule Procedure)) (w : World) :
    match (applyEach unit target rules).exec w with
    | (.ok (), _) => (tracedApplyEach unit target place rules).moments w =
        (List.range' place rules.length).map .applied
    | (.error _, _) => ∃ k < rules.length, (tracedApplyEach unit target place rules).moments w =
        (List.range' place (k + 1)).map .applied := by
  induction rules generalizing place w with
  | nil => rfl
  | cons rule rest ih =>
      have hfirst : (TracedRules.told (.applied place) (rule.apply unit target)).exec w =
        (rule.apply unit target).exec w := rfl
      rw [applyEach, tracedApplyEach, Act.exec_bind]
      rcases hout : (rule.apply unit target).exec w with ⟨e | _, v⟩
      · refine ⟨0, Nat.succ_pos _, ?_⟩
        rw [Traced.moments_bind_of_error (hfirst.trans hout)]
        rfl
      · have hrest := ih (place + 1) v
        dsimp only
        rw [Traced.moments_bind_of_ok (hfirst.trans hout)]
        rcases hend : (applyEach unit target rest).exec v with ⟨e | _, u⟩
        · rw [hend] at hrest
          obtain ⟨k, hk, hmoments⟩ := hrest
          refine ⟨k + 1, Nat.succ_lt_succ hk, ?_⟩
          rw [hmoments, List.range'_succ]
          rfl
        · rw [hend] at hrest
          dsimp only at hrest ⊢
          rw [hrest, List.length_cons, List.range'_succ]
          rfl

/-- Rules are applied in the order of their declaration, each once and before the body is called,
and make a nest with the last one outermost. If applying one of them raises, nothing else happens.
-/
theorem Runner.callBody_nests (r : Runner Procedure) (c : Candidate Procedure) (target : Instance)
    (w : World) :
    r.callBody c target = (do
      Rule.applyEach c.unit.name target r.suite.rules
      Rule.nest r.suite.rules (c.unit.call target)) ∧
    (r.tracedBody c target).act = r.callBody c target ∧
    match (Rule.applyEach c.unit.name target r.suite.rules).exec w with
    | (.ok (), _) => ∃ ms,
        (r.tracedBody c target).moments w =
          (List.range r.suite.rules.length).map .applied ++ ms ∧
        Nests r.suite.rules ms ((r.callBody c target).exec w).1
    | (.error e, v) =>
        (r.callBody c target).exec w = (.error e, v) ∧
        ∃ k < r.suite.rules.length,
          (r.tracedBody c target).moments w = (List.range (k + 1)).map .applied := by
  have happlied := Rule.moments_tracedApplyEach c.unit.name target 0 r.suite.rules w
  have hact := Rule.act_tracedApplyEach c.unit.name target 0 r.suite.rules
  refine ⟨r.callBody_eq c target, r.act_tracedBody c target, ?_⟩
  rcases hout : (Rule.applyEach c.unit.name target r.suite.rules).exec w with ⟨e | _, v⟩
  · -- The error of the rule at place `k` passes over the nest.
    rw [hout] at happlied
    obtain ⟨k, hk, hmoments⟩ := happlied
    have hexec : (Rule.tracedApplyEach c.unit.name target 0 r.suite.rules).exec w =
        (.error e, v) := by
      rw [Traced.exec, hact]
      exact hout
    refine ⟨?_, k, hk, ?_⟩
    · rw [r.callBody_eq, Act.exec_bind_of_error hout]
    · rw [Runner.tracedBody, Traced.moments_bind_of_error hexec, hmoments, List.range_eq_range']
  · rw [hout] at happlied
    have hexec : (Rule.tracedApplyEach c.unit.name target 0 r.suite.rules).exec w =
        (.ok (), v) := by
      rw [Traced.exec, hact]
      exact hout
    -- Once all rules are applied, the nest that they make is run.
    have hnest := nests_nest r.suite.rules c.unit target v
    refine ⟨(Rule.tracedNest r.suite.rules (c.unit.tracedCall target)).moments v, ?_, ?_⟩
    · dsimp only at happlied
      rw [Runner.tracedBody, Traced.moments_bind_of_ok hexec, happlied, List.range_eq_range']
    · rw [r.callBody_eq, Act.exec_bind_of_ok hout]
      rw [Traced.exec, Rule.act_tracedNest, TestUnit.act_tracedCall] at hnest
      exact hnest

end SeededTesting
