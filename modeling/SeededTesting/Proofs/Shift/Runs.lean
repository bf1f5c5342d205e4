import SeededTesting.Proofs.Run.Segments

/-! # Runs along a shift

A whole run does the same in related worlds where its candidates are filtered by the same test. Its
collaborators may do with its stack whatever they like: it works in a context of its own, which both
worlds enter and leave together.
-/

namespace SeededTesting.Runner

open Act Shift

variable {r : Runner Procedure} {audience : Audience} {κ : Shift} {n : Nat}
  (hcodes : ∀ code ∈ r.suite.codes, Procedure.Oblivious code) (haudience : audience.Oblivious)
  (hrename : κ.rename = id)

include hcodes haudience hrename

theorem corresponds_performAll {list : List Stage}
    (hunits : ∀ c, .candidate c ∈ list → c.unit ∈ r.suite.units) :
    κ.Corresponds n (r.performAll audience list) (r.performAll audience list) Same := by
  induction list with
  | nil => exact .value fun _ _ => rfl
  | cons stage rest ih =>
      have hunit : ∀ c, stage = .candidate c → c.unit ∈ r.suite.units :=
        fun c hc => hunits c (by rw [hc]; exact List.mem_cons_self)
      refine (corresponds_perform (.refl r) haudience hcodes hrename hunit).andThen fun go => ?_
      cases go with
      | false => exact .value fun _ _ => rfl
      | true => exact ih fun c hc => hunits c (List.mem_cons_of_mem _ hc)

variable (hexpands : r.Expands) (hfilter : κ.far.session.predicate = κ.near.session.predicate)

include hexpands hfilter

theorem corresponds_runSurvivors :
    κ.Corresponds n (r.runSurvivors audience) (r.runSurvivors audience) Same := by
  refine (corresponds_prepare (.refl r) hcodes).bind
    fun cs cs' _ _ ⟨test, test', hcs, hcs', htest⟩ => ?_
  obtain rfl : cs' = cs := by rw [hcs', hcs, htest hfilter]
  split
  · exact corresponds_enter _
  · rw [runClass_eq_performAll]
    refine corresponds_performAll hcodes haudience hrename fun c hc => hexpands c ?_
    have hmem : c ∈ cs' := by simpa using hc
    rw [hcs] at hmem
    exact r.mem_candidates_of_mem_survivors hmem

theorem corresponds_run : κ.Corresponds n (r.run audience) (r.run audience) Same :=
  .activate ((Corresponds.push _).andThen fun _ =>
    (corresponds_runSurvivors hcodes haudience hrename hexpands hfilter).andFinally
      corresponds_close)

end SeededTesting.Runner
