import SeededTesting.Proofs.DisplayName.Clashes
import SeededTesting.Proofs.Run.Aloud
import SeededTesting.Proofs.Run.Scripted

/-! # Reports of failures

Five places of a run report errors, and one error object may pass through several of them and
through runs within the run. Each place records its seeds on the object right before it reports it,
in front of all chains that the object carries already, so that what a listener is told begins with
the seeds that reproduce this failure. A warning with the same chains is logged before.
-/

namespace SeededTesting

open Act

/-! ## What is said by actions that are put together -/

/-- What is said by actions one after another is of a sort if it is for each of them. -/
class Cumulative (Q : List Saying → Prop) : Prop where
  nil : Q []
  append : ∀ {l m}, Q l → Q m → Q (l ++ m)

/-- Where `P` holds, what an action says is of a sort. -/
def Aloud.Tells {α : Type} (Q : List Saying → Prop) (P : World → Prop) (body : Aloud α) : Prop :=
  ∀ w, w.Lawful → P w → Q (body.said w)

namespace Aloud.Tells

variable {α β : Type} {Q : List Saying → Prop} {P : World → Prop} {U : α → World → Prop}

theorem pre {body : Aloud α} {P' : World → Prop} (h : Tells Q P body)
    (hP : ∀ w, P' w → P w) : Tells Q P' body :=
  fun w hw hPw => h w hw (hP w hPw)

variable [hQ : Cumulative Q]

theorem lift (body : Act α) : Tells Q P (liftM body : Aloud α) :=
  fun _ _ _ => hQ.nil

theorem bind {body : Aloud α} {next : α → Aloud β} (h : Tells Q P body)
    (hbody : Triple .free P body.act U (Blames anyComplaint))
    (hnext : ∀ x, Tells Q (U x) (next x)) : Tells Q P (body >>= next) := by
  intro w hw hP
  refine hQ.append (h w hw hP) ?_
  rcases hbody.outcome hw hP with ⟨x, v, hout, hleads, hU⟩ | ⟨e, v, hout, -, -, -⟩
  · rw [hout]
    exact hnext x v hleads.lawful hU
  · rw [hout]
    exact hQ.nil

/-- Nothing more is said after the body. -/
theorem bind_quiet {body : Aloud α} {next : α → Aloud β} (h : Tells Q P body)
    (hnext : ∀ x w, (next x).said w = []) : Tells Q P (body >>= next) := by
  intro w hw hP
  refine hQ.append (h w hw hP) ?_
  split
  · rw [hnext]
    exact hQ.nil
  · exact hQ.nil

theorem handle {body : Aloud α} {handler : ErrorId → Aloud α} (h : Tells Q P body)
    (hbody : Triple .free P body.act U (Blames anyComplaint))
    (hhandler : ∀ e, Tells Q (fun w => e < w.errors.size) (handler e)) :
    Tells Q P (.handle body handler) := by
  intro w hw hP
  refine hQ.append (h w hw hP) ?_
  rcases hbody.outcome hw hP with ⟨x, v, hout, -, -⟩ | ⟨e, v, hout, hleads, he, -⟩
  · rw [hout]
    exact hQ.nil
  · rw [hout]
    dsimp only
    -- An interrupt passes the handler by.
    split
    · exact hQ.nil
    · exact hhandler e _ (hleads.lawful.handled he) he

theorem andFinally {body cleanup : Aloud Unit} {U : Unit → World → Prop} (h : Tells Q P body)
    (hbody : Triple .free P body.act U (Blames anyComplaint))
    (hcleanup : Tells Q (fun _ => True) cleanup) : Tells Q P (.andFinally body cleanup) := by
  intro w hw hP
  refine hQ.append (h w hw hP) ?_
  rcases hbody.outcome hw hP with ⟨x, v, hout, hleads, -⟩ | ⟨e, v, hout, hleads, he, -⟩
  · rw [hout]
    exact hcleanup v hleads.lawful trivial
  · rw [hout]
    exact hcleanup _ (hleads.lawful.handled he) trivial

theorem inScope {source : RandomSource} {body : Aloud Unit} (h : Tells Q (fun _ => True) body)
    (hbody : Sound body.act) : Tells Q P (.inScope source body) := by
  have hpush : Sound (Act.push source) := .push id complains_any.toTolerates source
  exact bind (lift _) hpush.given fun _ => andFinally h hbody (lift _)

theorem activate {context : RunContext} {body : Aloud Unit} (h : Tells Q (fun _ => True) body)
    (hbody : Sound body.act) : Tells Q P (.activate context body) := by
  intro w hw _
  refine hQ.append hQ.nil ?_
  have hin : (w.within (context :: w.contexts)).Lawful := ⟨hw.errors, hw.handling⟩
  exact andFinally h hbody (lift _) _ hin trivial

end Aloud.Tells

/-! ## Chains in front -/

/-- What is extracted from an error starts with the chain that was recorded last. -/
theorem ErrorStore.extractSeed_of_head {s : ErrorStore} {e : ErrorId} {chain : String}
    (h : (s.get e).chains.head? = some chain) :
    ∃ more, s.extractSeed e = some (chain ++ more) := by
  obtain ⟨earlier, hchains⟩ := List.head?_eq_some_iff.mp h
  obtain ⟨others, horigins⟩ : ∃ others, s.origins e = e :: others := ⟨_, rfl⟩
  have hall : ((s.origins e).flatMap fun o => (s.get o).chains) =
      chain :: (earlier ++ others.flatMap fun o => (s.get o).chains) := by
    rw [horigins, List.flatMap_cons, hchains, List.cons_append]
  rw [extractSeed, hall]
  generalize earlier ++ others.flatMap _ = rest
  cases rest with
  | nil => exact ⟨"", by rw [String.intercalate_singleton, String.append_empty]; rfl⟩
  | cons next rest =>
      refine ⟨", " ++ String.intercalate ", " (next :: rest), ?_⟩
      rw [String.intercalate_cons_cons, String.append_assoc]
      rfl

/-- Seeds were recorded on an error object, unless it refuses that, in front of everything that it
carries. -/
def ErrorStore.Marked (s : ErrorStore) (seeds : List Seed) (e : ErrorId) : Prop :=
  e < s.size ∧ ((s.get e).kind.refusal = none →
    (s.get e).chains.head? = some (SeedChain.format seeds))

theorem ErrorObject.record_head {o : ErrorObject} (h : o.kind.refusal = none) (chain : String) :
    (o.record chain).2.chains.head? = some chain := by
  rw [record_chains, if_pos h, List.head?_cons]

theorem ErrorStore.marked_augment {s : ErrorStore} {e : ErrorId} (he : e < s.size)
    (seeds : List Seed) : (s.augment e seeds).2.Marked seeds e := by
  rw [augment_eq, Marked]
  dsimp only
  rw [size_update, get_update_self he, ErrorObject.record_toComplaint]
  exact ⟨he, fun h => ErrorObject.record_head h _⟩

/-- Recording seeds marks the error, whatever it carries already. -/
theorem Act.exec_augment_marks {e : ErrorId} {seeds : List Seed} {w v : World}
    (he : e < w.errors.size) (h : (Act.augment e seeds).exec w = (.ok (), v)) :
    v.errors.Marked seeds e := by
  have hmarked := w.errors.marked_augment he seeds
  rw [exec_augment] at h
  generalize w.errors.augment e seeds = result at h hmarked
  obtain ⟨_ | _ | _, errors⟩ := result
  · cases h
    exact hmarked
  · cases h
    exact hmarked
  · dsimp only at h
    rw [exec_complain] at h
    cases h

theorem Act.Triple.augment_marks (e : ErrorId) (seeds : List Seed) {F : World → Prop}
    (hF : ∀ w v, Regime.free.Leads w v → F w → F v) :
    Triple .free (fun w => e < w.errors.size ∧ F w) (Act.augment e seeds)
      (fun _ w => w.errors.Marked seeds e ∧ F w) (Blames anyComplaint) := by
  intro w hw ⟨he, hFw⟩
  have haugment : Sound (Act.augment e seeds) := .augment trivial e seeds
  rcases haugment.outcome hw trivial with ⟨_, v, hout, hleads, -⟩ | ⟨i, v, hout, hleads, hi, -⟩
  · rw [hout]
    exact ⟨hleads, exec_augment_marks he hout, hF w v hleads hFw⟩
  · rw [hout]
    exact ⟨hleads, hi, hi, trivial⟩

/-! ## What a report tells -/

/-- A signal that is neither a warning nor a notification of kind `failed`. -/
def Signal.Aside : Signal → Prop
  | .logged record => record.level ≠ .warning
  | .sent n => n.kind ≠ .failed

namespace Runner

/-- The seeds that reproduce what a name stands for: the suite, or one of its candidates. -/
def About {Code : Type} (r : Runner Code) (name : String) (seeds : List Seed) : Prop :=
  (name = r.suite.name ∧ seeds = [r.master]) ∨
    ∃ c ∈ r.candidates, name = c.name ∧ seeds = [r.master, c.seed]

/-- No name stands for two things. -/
def Unambiguous {Code : Type} (r : Runner Code) : Prop :=
  ∀ name seeds other, r.About name seeds → r.About name other → other = seeds

variable (r : Runner Procedure)

/-- A notification about an error that tells first, in the world in which it is sent, how to
reproduce what the notification is about. Objects that refuse attributes are exempt. -/
def Reproducible (n : Notification ErrorId) (w : World) : Prop :=
  ∃ e seeds, n.error = some e ∧ e < w.errors.size ∧
    (∀ other, r.About n.name other ↔ other = seeds) ∧
    SeedChain.parse (SeedChain.format seeds) = .ok seeds ∧
    ((w.errors.get e).kind.refusal = none →
      (w.errors.get e).chains.head? = some (SeedChain.format seeds) ∧
        ∃ more, w.errors.extractSeed e = some (SeedChain.format seeds ++ more))

/-- The record about a failure, with what can be extracted from its error. -/
def warning (errors : ErrorStore) (name : String) (e : ErrorId) : LogRecord where
  level := .warning
  logger := "seedrunner.runner.scheduler"
  message := "Failure in " ++ name ++ ": " ++ (errors.get e).summary
  trace := r.seedChain
  detail := .failure (errors.extractSeed e)

/-- Warnings are logged about failures only, one for each, directly before the notification. -/
inductive Warned : List Saying → Prop where
  | nil : Warned []
  | aside {signal : Signal} {w : World} {rest : List Saying} (h : signal.Aside)
      (hrest : Warned rest) : Warned (⟨signal, w⟩ :: rest)
  | failure (name : String) (e : ErrorId) (w : World) {rest : List Saying} (hrest : Warned rest) :
      Warned (⟨.logged (r.warning w.errors name e), w⟩ ::
        ⟨.sent { kind := .failed, name, error := some e },
          { w with journal := w.journal.push (r.warning w.errors name e) }⟩ :: rest)

/-- What a run says of failures is in order. -/
structure Disclosed (said : List Saying) : Prop where
  reproducible : ∀ n w, ⟨.sent n, w⟩ ∈ said → n.kind = .failed ∨ n.kind = .assumptionFailed →
    r.Reproducible n w
  warned : r.Warned said

variable {r}

theorem Warned.append {said more : List Saying} (h : r.Warned said) (hmore : r.Warned more) :
    r.Warned (said ++ more) := by
  induction h with
  | nil => exact hmore
  | aside h _ ih => exact .aside h ih
  | failure name e w _ ih => exact .failure name e w ih

instance : Cumulative r.Disclosed where
  nil := ⟨fun _ _ h => absurd h List.not_mem_nil, .nil⟩
  append h hmore := by
    refine ⟨fun n w hmem hkind => ?_, h.warned.append hmore.warned⟩
    rcases List.mem_append.mp hmem with hmem | hmem
    · exact h.reproducible n w hmem hkind
    · exact hmore.reproducible n w hmem hkind

theorem disclosed_logged {record : LogRecord} (h : record.level ≠ .warning) (w : World) :
    r.Disclosed [⟨.logged record, w⟩] where
  reproducible n v hmem _ := by cases List.mem_singleton.mp hmem
  warned := .aside h .nil

theorem disclosed_sent {n : Notification ErrorId} (h : n.kind ≠ .failed) {w : World}
    (hassumption : n.kind = .assumptionFailed → r.Reproducible n w) :
    r.Disclosed [⟨.sent n, w⟩] where
  reproducible m v hmem hkind := by
    cases List.mem_singleton.mp hmem
    exact hassumption (hkind.resolve_left h)
  warned := .aside h .nil

theorem MadeOf.unambiguous {Code : Type} {r : Runner Code} {suite : Suite Code}
    {config : RunConfig} {clock : Int} {sequence sequence' : Nat}
    (h : r.MadeOf suite config clock sequence sequence') : r.Unambiguous := by
  have hcandidate : ∀ c ∈ r.candidates, c.name ≠ r.suite.name := fun c hc => h.name_ne_suite hc
  rintro name seeds other (⟨rfl, rfl⟩ | ⟨c, hc, rfl, rfl⟩) (⟨hname, rfl⟩ | ⟨d, hd, hname, rfl⟩)
  · rfl
  · exact absurd hname.symm (hcandidate d hd)
  · exact absurd hname (hcandidate c hc)
  -- Candidates of one name may be two that clash, but then they have one seed.
  · rw [(h.candidate_eq hc).1, (h.candidate_eq hd).1, DisplayName.format_eq_iff] at hname
    rw [hname.2]

/-! ## Reports of a run -/

namespace Aloud

variable (r)

theorem tells_log {level : LogLevel} (h : level ≠ .warning) (message : String) (detail : LogDetail)
    {P : World → Prop} : (log r level message detail).Tells r.Disclosed P :=
  fun w _ _ => disclosed_logged h w

theorem tells_enter (state : RunState) {P : World → Prop} : (enter r state).Tells r.Disclosed P :=
  .bind (.lift _) Conduct.world.given fun _ =>
    .bind (tells_log r (by decide) _ _) (r.conduct_log _ _ _).given fun _ => .lift _

theorem tells_notify (audience : Audience) {kind : NotificationKind} (h : kind ≠ .failed)
    (hassumption : kind ≠ .assumptionFailed) (name : String) {P : World → Prop} :
    (notify audience { kind, name }).Tells r.Disclosed P :=
  fun _ _ _ => disclosed_sent h fun hkind => absurd hkind hassumption

variable {r}

/-- A report that follows when seeds were recorded tells them first. -/
theorem reproducible_of_marked
    (hunique : r.Unambiguous)
    {name : String} {seeds : List Seed} (habout : r.About name seeds) {e : ErrorId} {w : World}
    (h : w.errors.Marked seeds e) (kind : NotificationKind) :
    r.Reproducible { kind, name, error := some e } w := by
  have hne : seeds ≠ [] := by
    rcases habout with ⟨-, rfl⟩ | ⟨c, -, -, rfl⟩
    · exact List.cons_ne_nil _ _
    · exact List.cons_ne_nil _ _
  refine ⟨e, seeds, rfl, h.1, fun other => ⟨hunique name seeds other habout, ?_⟩,
    SeedChain.parse_format hne, fun hkind => ?_⟩
  · rintro rfl
    exact habout
  · exact ⟨h.2 hkind, ErrorStore.extractSeed_of_head (h.2 hkind)⟩

section Reports

variable (hunique : r.Unambiguous)
  {audience : Audience} (hnotify : ∀ n, Sound (audience.notify n))

include hunique

theorem tells_reportFailure {name : String} {seeds : List Seed} (habout : r.About name seeds)
    (e : ErrorId) : (reportFailure r audience name e).Tells r.Disclosed fun w =>
      w.errors.Marked seeds e := by
  intro w _ hmarked
  have hsaid : (reportFailure r audience name e).said w =
      [⟨.logged (r.warning w.errors name e), w⟩,
        ⟨.sent { kind := .failed, name, error := some e },
          { w with journal := w.journal.push (r.warning w.errors name e) }⟩] := rfl
  rw [hsaid]
  refine ⟨fun n v hmem _ => ?_, .failure name e w .nil⟩
  rcases List.mem_cons.mp hmem with heq | hmem
  · cases heq
  · cases List.mem_singleton.mp hmem
    exact reproducible_of_marked hunique habout hmarked .failed

include hnotify

theorem tells_reportOutcomes {name : String} {seeds : List Seed} (habout : r.About name seeds)
    (outcomes : List (Hook Procedure × Option ErrorId)) :
    (reportOutcomes r audience name seeds outcomes).Tells r.Disclosed
      (OutcomesBlame anyComplaint outcomes) := by
  induction outcomes with
  | nil => exact .lift _
  | cons outcome rest ih =>
      have hrest : ∀ w, OutcomesBlame anyComplaint (outcome :: rest) w →
          OutcomesBlame anyComplaint rest w :=
        fun w h outcome hmem => h outcome (List.mem_cons_of_mem _ hmem)
      obtain ⟨hook, _ | e⟩ := outcome
      · exact ih.pre hrest
      -- The errors that are still to be reported stay at hand while this one is.
      · have hkeeps : ∀ w v, Regime.free.Leads w v → OutcomesBlame anyComplaint rest w →
            OutcomesBlame anyComplaint rest v :=
          fun w v hleads h outcome hmem i hi => hleads.blames (h outcome hmem i hi)
        have haugment := (Triple.augment_marks e seeds hkeeps).pre (Q :=
          OutcomesBlame anyComplaint ((hook, some e) :: rest))
          fun w _ h => ⟨(h _ List.mem_cons_self e rfl).1, hrest w h⟩
        have hreport :=
          Triple.frame (r.conduct_reportFailure hnotify name e) fun w v _ => hkeeps w v
        refine .bind (.lift _) haugment fun _ => .bind
          ((tells_reportFailure hunique habout e).pre fun _ h => h.1)
          (hreport.conseq ?_ (fun _ _ _ h => h.2) fun _ _ _ _ h => h.1) fun _ => ih
        exact fun _ _ h => ⟨trivial, h.2⟩

omit hnotify in
theorem tells_reportSuite (e : ErrorId) :
    (reportSuite r audience e).Tells r.Disclosed fun w => e < w.errors.size := by
  have haugment := (Triple.augment_marks e [r.master] fun _ _ _ h => h).pre (Q :=
    fun w => e < w.errors.size) fun _ _ h => ⟨h, trivial⟩
  exact .bind (.lift _) haugment fun _ =>
    (tells_reportFailure hunique (.inl ⟨rfl, rfl⟩) e).pre fun _ h => h.1

omit hnotify in
theorem tells_reportCandidate {c : Candidate Procedure} (hc : c ∈ r.candidates) (e : ErrorId) :
    (reportCandidate r audience c e).Tells r.Disclosed fun w => e < w.errors.size := by
  have habout : r.About c.name [r.master, c.seed] := .inr ⟨c, hc, rfl, rfl⟩
  have haugment := (Triple.augment_marks e [r.master, c.seed] fun _ _ _ h => h).pre (Q :=
    fun w => e < w.errors.size) fun _ _ h => ⟨h, trivial⟩
  refine .bind (.lift _) haugment fun _ => .bind (.lift _)
    (Triple.complaint.post (fun _ _ h => h.2.1) fun _ _ h => h) fun complaint => ?_
  split
  · have hkind : NotificationKind.assumptionFailed ≠ .failed := by decide
    exact fun _ _ hmarked => disclosed_sent hkind fun _ =>
      reproducible_of_marked hunique habout hmarked .assumptionFailed
  · exact tells_reportFailure hunique habout e

end Reports

section Stages

variable (hunique : r.Unambiguous)
  (hcodes : ∀ code ∈ r.suite.codes, code.Conducts .free anyComplaint)
  {audience : Audience} (haudience : audience.Conducts .free anyComplaint)

include hunique hcodes haudience

/-- Hooks that failed are reported. -/
theorem tells_invokePhase {name : String} {seeds : List Seed} (habout : r.About name seeds)
    (phase : Phase) (arguments : List Instance) {P : World → Prop} :
    Aloud.Tells r.Disclosed P (do
      let outcomes ← invokeAll arguments (← r.hooks phase)
      reportOutcomes r audience name seeds outcomes) := by
  -- Of the hooks only this is known, that they were resolved from the seed that was active.
  refine .bind (.lift _) (Triple.pre (r.conduct_hooks complains_any phase) fun _ _ _ => trivial)
    fun hooks w hw ⟨active, hhooks⟩ => ?_
  subst hhooks
  have hcalls : ∀ hook ∈ hooksFor r.suite.levels phase active, Sound (hook.call arguments) :=
    r.conduct_hookCall .free complains_any hcodes
  have hreports := fun outcomes =>
    tells_reportOutcomes hunique (abides_notify .free haudience) habout outcomes
  refine Aloud.Tells.bind (.lift _) (conduct_invokeAll hcalls fun _ _ _ => trivial)
    (fun outcomes => (hreports outcomes).pre fun w h outcome hmem e he => ?_) w hw trivial
  exact (h outcome hmem e he).mono fun _ _ => trivial

omit haudience in
theorem tells_setUpClass : (setUpClass r audience).Tells r.Disclosed fun _ => True := by
  have hcalled : Sound (do callHooks [] (← r.hooks .beforeAll); return true) := by
    have hall := Conduct.bind (r.conduct_callPhase .free complains_any hcodes .beforeAll [])
      fun _ => .value true
    rwa [bind_assoc] at hall
  exact .handle (.lift _) hcalled fun e =>
    .bind_quiet (tells_reportSuite hunique e) fun _ _ => rfl

theorem tells_execute {c : Candidate Procedure} (hc : c ∈ r.candidates)
    (hunit : c.unit ∈ r.suite.units) {P : World → Prop} :
    (execute r audience c).Tells r.Disclosed P := by
  have hmade :=
    (r.conduct_makeInstance .free complains_any hcodes).observe (Y := Blames anyComplaint)
  refine .bind (.lift _) (hmade.pre fun _ _ _ => trivial) fun made => ?_
  have hcalled := r.conduct_callCandidate .free complains_any hcodes hunit made
  have hattempted := r.conduct_attempt .free complains_any hcodes escapes_any
    (abides_notify .free haudience) hunit made
  rw [← funext (act_reportCandidate r audience c)] at hattempted
  refine .bind (.handle (.lift _) hcalled fun e => tells_reportCandidate hunique hc e) hattempted
    fun _ => ?_
  split
  · exact tells_invokePhase hunique hcodes haudience (.inr ⟨c, hc, rfl, rfl⟩) _ _
  · exact .lift _

theorem tells_attend {c : Candidate Procedure} (hc : c ∈ r.candidates)
    (hunit : c.unit ∈ r.suite.units) {P : World → Prop} :
    (attend r audience c).Tells r.Disclosed P := by
  have hnotify := abides_notify .free haudience
  have hbody : Sound (if r.ignores c then notify audience { kind := .ignored, name := c.name }
      else execute r audience c).act := by
    split
    · exact hnotify _
    · rw [act_execute]
      exact r.conduct_execute .free complains_any hcodes escapes_any hnotify active_any hunit
  refine .bind (tells_notify r audience (by decide) (by decide) _) (hnotify _).given fun _ =>
    .andFinally ?_ hbody (tells_notify r audience (by decide) (by decide) _)
  split
  · exact tells_notify r audience (by decide) (by decide) _
  · exact tells_execute hunique hcodes haudience hc hunit

theorem tells_runCandidate {c : Candidate Procedure} (hc : c ∈ r.candidates)
    (hunit : c.unit ∈ r.suite.units) {P : World → Prop} :
    (runCandidate r audience c).Tells r.Disclosed P := by
  refine .inScope (tells_attend hunique hcodes haudience hc hunit) ?_
  rw [act_attend]
  exact r.conduct_attend .free complains_any hcodes escapes_any (abides_notify .free haudience)
    active_any hunit

variable (hexpands : r.Expands)

include hexpands

theorem tells_runCandidates {cs : List (Candidate Procedure)} (hcs : ∀ c ∈ cs, c ∈ r.candidates)
    {P : World → Prop} : (runCandidates r audience cs).Tells r.Disclosed P := by
  induction cs generalizing P with
  | nil => exact .lift _
  | cons c rest ih =>
      have hc := hcs c List.mem_cons_self
      have hcandidate := r.abides_runCandidate .free hcodes haudience (hexpands c hc)
      rw [← act_runCandidate] at hcandidate
      exact .bind (tells_runCandidate hunique hcodes haudience hc (hexpands c hc))
        hcandidate.given fun _ => ih fun c hmem => hcs c (List.mem_cons_of_mem _ hmem)

theorem tells_runClass {cs : List (Candidate Procedure)} (hcs : ∀ c ∈ cs, c ∈ r.candidates)
    {P : World → Prop} : (runClass r audience cs).Tells r.Disclosed P := by
  have hsetUp := r.abides_setUpClass .free hcodes haudience
  have hcandidates := r.abides_runCandidates .free hcodes haudience
    fun c hc => hexpands c (hcs c hc)
  rw [← act_runCandidates] at hcandidates
  refine .bind (tells_enter r _) (r.abides_enter .free _).given fun _ =>
    .bind (tells_setUpClass hunique hcodes) hsetUp fun ready => ?_
  cases ready with
  | false => exact .lift _
  | true =>
      exact .bind (tells_enter r _) (r.abides_enter .free _).given fun _ =>
        .bind (tells_runCandidates hunique hcodes haudience hexpands hcs) hcandidates fun _ =>
          .bind (tells_enter r _) (r.abides_enter .free _) fun _ =>
            tells_invokePhase hunique hcodes haudience (.inl ⟨rfl, rfl⟩) _ _

theorem tells_runSurvivors {P : World → Prop} :
    (runSurvivors r audience).Tells r.Disclosed P := by
  have hcreate : ∀ factory ∈ r.suite.listeners, factory.create.Conducts .free anyComplaint :=
    fun factory hmem => hcodes _ (Suite.listener_mem_codes hmem List.mem_cons_self)
  have hprepare : (prepare r).Tells r.Disclosed P :=
    .bind (.lift _) (r.conduct_subscribeFrom .free hcreate 0).given fun _ =>
      .bind (tells_enter r _) (r.abides_enter .free _) fun _ => .bind (.lift _) .world fun _ =>
        .bind_quiet (tells_log r (by decide) _ _) fun _ _ => rfl
  refine .bind hprepare (Triple.pre (r.conduct_prepare .free hcodes) fun _ _ _ => trivial)
    fun cs w hw hcs => ?_
  have hrest : Aloud.Tells r.Disclosed (fun _ => True)
      (if cs.isEmpty then enter r .idle else runClass r audience cs) := by
    split
    · exact tells_enter r _
    · exact tells_runClass hunique hcodes haudience hexpands hcs
  exact hrest w hw trivial

omit hunique hcodes haudience hexpands in
theorem tells_close {P : World → Prop} : (close r).Tells r.Disclosed P := by
  have hpop : Sound (discard Act.pop) := .discard (.pop id complains_any.toTolerates)
  exact .bind (.lift _) (conduct_unsubscribeDeclared .free).given fun _ =>
    .bind (.lift _) hpop fun _ =>
      .bind (tells_enter r _) (r.abides_enter .free _) fun _ => tells_log r (by decide) _ _

/-- What a run says of failures is in order, whatever its collaborators do. -/
theorem tells_run {P : World → Prop} : (run r audience).Tells r.Disclosed P := by
  have hpush : Sound (Act.push (.fresh r.master)) := .push id complains_any.toTolerates _
  have hsurvivors := r.abides_runSurvivors .free hcodes haudience hexpands
  have hclose := r.conduct_close id .free
  rw [← act_runSurvivors] at hsurvivors
  refine .activate (.bind (.lift _) hpush fun _ => .andFinally ?_ hsurvivors tells_close) ?_
  · exact tells_runSurvivors hunique hcodes haudience hexpands
  · exact .bind hpush fun _ => .andFinally hsurvivors hclose

end Stages

end Aloud

/-- The log and the notifications of every run disclose its failures. Whatever is done aloud is
what the run does. Of all that it says, every notification about a failure or a violated assumption
is reproducible at the moment in which it is sent, whatever chains its error or the causes of it
carried before; and warnings are logged about failures only, one for each, directly before the
notification and with the chains that can be extracted then. -/
theorem disclosed_run {host origin : Host} {suite : Suite Script} {config : Option RunConfig}
    {sequence sequence' : Nat} {r : Runner Procedure}
    (hmake : make (Script.suiteProcedures host suite) config origin sequence = .ok (r, sequence'))
    (declarations : List NotifierProgram.Declaration) {w : World} (hw : w.Lawful) :
    let audience := r.audienceFor host declarations
    (Aloud.run r audience).act = r.run audience ∧
      (∀ n v, ⟨.sent n, v⟩ ∈ (Aloud.run r audience).said w →
        n.kind = .failed ∨ n.kind = .assumptionFailed → r.Reproducible n v) ∧
      r.Warned ((Aloud.run r audience).said w) := by
  intro audience
  obtain ⟨-, checked, -, hmade⟩ := make_eq_ok hmake
  have haudience : audience.Conducts .free anyComplaint :=
    audienceFor_of_make hmake (fun script _ => Script.sound host script)
      fun _ _ script _ => Script.sound host script
  have hsaid := Aloud.tells_run (P := fun _ => True) hmade.unambiguous
    (sound_codes_of_make hmake) haudience (expands_of_make hmake) w hw trivial
  exact ⟨Aloud.act_run r audience, hsaid.reproducible, hsaid.warned⟩

end Runner

/-- What a failure is told with: its notification, and what can be extracted from its error. -/
def Saying.failure? (saying : Saying) : Option (NotificationKind × String × Option String) :=
  match saying.signal with
  | .logged _ => none
  | .sent n => n.error.map fun e => (n.kind, n.name, saying.world.errors.extractSeed e)

/-- An error with chains of its own, which is made once. -/
def ErrorSource.carried : ErrorSource where
  complaint := ⟨.named "Prechained", some "again"⟩
  key := some "carried"

/-- A suite in which one error object is raised by a run within the run, by a test, after tests and
as the cause of an error that takes no notes. -/
def reraisingSuite : Suite Script where
  name := "Reraising"
  factory := some { code := [] }
  units := [
    { name := "fails", body := some [
      .nested {
        name := "Inner"
        factory := some { code := [] }
        units := [{ name := "first", body := some [.raise [{ error := .carried }]] }] }
        (some { seed := some "[7:8]" }) none,
      .raise [{ error := .carried }]] },
    { name := "skips", body := some [.assume false "not today"] }]
  levels := [{
    owner := "Reraising"
    afterEach := [{ name := "close", label := "close", code := some [
      .raise [{ error := .carried }]] }]
    afterAll := [{ name := "end", label := "end", code := some [
      .raise [{
        error := { complaint := ⟨.named "BadNotes", none⟩ }
        cause := some (some .carried) }]] }] }]

/-- Whatever was recorded on the object before, each report tells first how to reproduce it. -/
theorem Runner.disclosed_run_reraisingSuite : ∃ r sequence,
    make (Script.suiteProcedures {} reraisingSuite) (some .pinned) {} 0 = .ok (r, sequence) ∧
      let audience := r.audienceFor {} [.recording]
      ((Aloud.run r audience).said {}).filterMap Saying.failure? = [
          (.failed, "fails [1:2](Reraising)", some "[1:2], [7:8], [AA], [BB]"),
          (.failed, "fails [1:2](Reraising)", some "[1:2], [1:2], [7:8], [AA], [BB]"),
          (.assumptionFailed, "skips [1:2](Reraising)", some "[1:2]"),
          (.failed, "skips [1:2](Reraising)", some "[1:2], [1:2], [1:2], [7:8], [AA], [BB]"),
          (.failed, "Reraising", some "[1], [1:2], [1:2], [1:2], [7:8], [AA], [BB]")] ∧
        (Aloud.run r audience).act = r.run audience ∧
        (∀ n v, ⟨.sent n, v⟩ ∈ (Aloud.run r audience).said {} →
          n.kind = .failed ∨ n.kind = .assumptionFailed → r.Reproducible n v) ∧
        r.Warned ((Aloud.run r audience).said {}) := by
  obtain ⟨made, hmake⟩ : ∃ made,
      make (Script.suiteProcedures {} reraisingSuite) (some .pinned) {} 0 = .ok made := ⟨_, rfl⟩
  refine ⟨made.1, made.2, hmake, ?_, disclosed_run hmake [.recording] (World.lawful_initial {})⟩
  cases hmake
  decide +kernel

end SeededTesting
