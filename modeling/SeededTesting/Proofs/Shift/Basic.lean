import SeededTesting.Proofs.Failure.Walks

/-! # Shifts

The same work can be taken up in two worlds, the second of which has seen more. A shift from the
one to the other says how what happens in the first is found again in the second: new errors are
further on in the store, new instances have higher numbers, and what is told may be about another
name. What was there before is not touched.
-/

namespace SeededTesting

/-- An object whose links lead elsewhere. -/
def ErrorObject.relink (o : ErrorObject) (f : ErrorId → ErrorId) : ErrorObject :=
  { o with cause := o.cause.map f, context := o.context.map f }

/-- An event with other instance numbers, about another name. -/
def Event.moved (offset : Int) (rename : String → String) : Event → Event
  | .called label arguments => .called label (arguments.map (Option.map (· + offset)))
  | .instanceMade number => .instanceMade (number + offset).toNat
  | .ruleBuilt tag unit target => .ruleBuilt tag unit (target.map (· + offset))
  | .heard tag kind name failure => .heard tag kind (rename name) failure
  | event => event

/-- A notification without its place in a recording. -/
def Notification.unplaced {α : Type} (n : Notification α) : Notification α :=
  { n with seq := none }

/-- What recording listeners were told, without the places in their recordings. -/
def Session.told (s : Session) : List (ListenerRef × Notification ErrorId) :=
  s.recorded.toList.map fun entry => (entry.1, entry.2.unplaced)

structure Shift where
  near : World
  far : World
  rename : String → String := id
  closed : near.errors.Closed
  size_le : near.errors.size ≤ far.errors.size
  instances_le : near.session.instances ≤ far.session.instances

namespace Shift

variable (κ : Shift)

/-- How many errors were made in the second world only. -/
def gap : Nat :=
  κ.far.errors.size - κ.near.errors.size

/-- How many instances were made in the second world only. -/
def ahead : Nat :=
  κ.far.session.instances - κ.near.session.instances

/-- Where an error of the first world is found in the second. -/
def place (e : Nat) : Nat :=
  if e < κ.near.errors.size then e else e + κ.gap

def target (target : Instance) : Instance :=
  target.map (· + (κ.ahead : Int))

def event (event : Event) : Event :=
  event.moved κ.ahead κ.rename

def notification (n : Notification ErrorId) : Notification ErrorId :=
  { kind := n.kind, name := κ.rename n.name, error := n.error.map κ.place, seq := n.seq }

/-- An error that was made since. -/
def Fresh (size : Nat) (e : ErrorId) : Prop :=
  κ.near.errors.size ≤ e ∧ e < size

/-! ## Stores -/

/-- The objects of one store are found again in another one, and those of old are kept. -/
structure Matches (s t : ErrorStore) : Prop where
  near : κ.near.errors.Keeps s
  far : κ.far.errors.Keeps t
  size : t.size = s.size + κ.gap
  objects : ∀ e, t.get (κ.place e) = (s.get e).relink κ.place

variable {κ} {s t : ErrorStore} {e : ErrorId}

theorem place_of_lt (h : e < κ.near.errors.size) : κ.place e = e :=
  if_pos h

theorem place_of_le (h : κ.near.errors.size ≤ e) : κ.place e = e + κ.gap :=
  if_neg (Nat.not_lt_of_le h)

theorem place_injective : Function.Injective κ.place := by
  intro i j h
  unfold place at h
  split at h <;> split at h <;> omega

/-- New errors of the second world are none of its old ones. -/
theorem far_size_le (h : κ.near.errors.size ≤ e) : κ.far.errors.size ≤ κ.place e := by
  have := κ.size_le
  rw [place_of_le h, gap]
  omega

theorem Fresh.mono {m n : Nat} (h : κ.Fresh m e) (hmn : m ≤ n) : κ.Fresh n e :=
  ⟨h.1, Nat.lt_of_lt_of_le h.2 hmn⟩

@[simp] theorem relink_toComplaint (o : ErrorObject) (f : ErrorId → ErrorId) :
    (o.relink f).toComplaint = o.toComplaint := rfl

/-- Links to old errors are left alone. -/
theorem relink_old {o : ErrorObject} (hcause : ∀ i, o.cause = some i → i < κ.near.errors.size)
    (hcontext : ∀ i, o.context = some i → i < κ.near.errors.size) : o.relink κ.place = o := by
  obtain ⟨c, chains, notes, cause, context, suppress⟩ := o
  have hmap : ∀ link : Option ErrorId, (∀ i, link = some i → i < κ.near.errors.size) →
      link.map κ.place = link := by
    intro link h
    cases link with
    | none => rfl
    | some i => exact congrArg some (place_of_lt (h i rfl))
  rw [ErrorObject.relink, hmap cause hcause, hmap context hcontext]

namespace Matches

variable (h : κ.Matches s t)

include h

theorem toComplaint (e : ErrorId) :
    (t.get (κ.place e)).toComplaint = (s.get e).toComplaint := by
  rw [h.objects, relink_toComplaint]

theorem update (he : κ.near.errors.size ≤ e) {f g : ErrorObject → ErrorObject}
    (hfg : g ((s.get e).relink κ.place) = (f (s.get e)).relink κ.place) :
    κ.Matches (s.update e f) (t.update (κ.place e) g) where
  near := by
    refine ⟨by simpa using h.near.1, fun i hi => ?_⟩
    rw [ErrorStore.get_update_of_ne s (Nat.ne_of_lt (Nat.lt_of_lt_of_le hi he))]
    exact h.near.2 i hi
  far := by
    refine ⟨by simpa using h.far.1, fun i hi => ?_⟩
    rw [ErrorStore.get_update_of_ne t (Nat.ne_of_lt (Nat.lt_of_lt_of_le hi (far_size_le he)))]
    exact h.far.2 i hi
  size := by simpa using h.size
  objects i := by
    have hsize : κ.place e < t.size ↔ e < s.size := by
      rw [place_of_le he, h.size]
      exact Nat.add_lt_add_iff_right
    rw [ErrorStore.get_update, ErrorStore.get_update]
    by_cases hi : i = e ∧ e < s.size
    · rw [if_pos hi, if_pos ⟨congrArg κ.place hi.1, hsize.mpr hi.2⟩, h.objects, hfg]
    · rw [if_neg hi, if_neg fun hi' => hi ⟨place_injective hi'.1, hsize.mp hi'.2⟩, h.objects]

/-- The next error of one store is found again as the next one of the other. -/
theorem place_size : κ.place s.size = t.size := by
  rw [place_of_le h.near.1, h.size]

theorem add (c : Complaint) : κ.Matches (s.add c).2 (t.add c).2 where
  near := h.near.trans
    ⟨by simp, fun i hi => ErrorStore.get_add_of_ne s c (Nat.ne_of_lt hi)⟩
  far := h.far.trans
    ⟨by simp, fun i hi => ErrorStore.get_add_of_ne t c (Nat.ne_of_lt hi)⟩
  size := by
    rw [ErrorStore.size_add, ErrorStore.size_add, h.size]
    omega
  objects i := by
    by_cases hi : i = s.size
    · rw [hi, h.place_size, ErrorStore.get_add_self, ErrorStore.get_add_self]
      rfl
    · have hne : κ.place i ≠ t.size := by
        rw [← h.place_size]
        exact place_injective.ne hi
      rw [ErrorStore.get_add_of_ne s c hi, ErrorStore.get_add_of_ne t c hne, h.objects]

theorem setContext (he : κ.near.errors.size ≤ e) (context : Option ErrorId) :
    κ.Matches (s.setContext e context) (t.setContext (κ.place e) (context.map κ.place)) :=
  h.update he rfl

theorem setCause (he : κ.near.errors.size ≤ e) (cause : Option ErrorId) :
    κ.Matches (s.setCause e cause) (t.setCause (κ.place e) (cause.map κ.place)) :=
  h.update he rfl

/-- Recording seeds comes to the same. -/
theorem augment (he : κ.near.errors.size ≤ e) (seeds : List Seed) :
    (t.augment (κ.place e) seeds).1 = (s.augment e seeds).1 ∧
      κ.Matches (s.augment e seeds).2 (t.augment (κ.place e) seeds).2 := by
  have hrecord : ∀ (o : ErrorObject) chain, (o.relink κ.place).record chain =
      ((o.record chain).1, (o.record chain).2.relink κ.place) := by
    intro o chain
    have htemper : (o.relink κ.place).temper = o.temper := rfl
    rw [ErrorObject.record, ErrorObject.record, htemper]
    unfold ErrorObject.recordAs
    cases o.temper.toChain with
    | refuses refusal text => rfl
    | accepts => cases o.temper.toNote <;> rfl
  rw [ErrorStore.augment_eq, ErrorStore.augment_eq, h.objects, hrecord]
  exact ⟨rfl, h.update he rfl⟩

/-- Walks along contexts pass by the same objects. -/
theorem contextBefore? (target node : ErrorId) (bound : Nat) :
    t.contextBefore? (κ.place target) bound (κ.place node) =
      (s.contextBefore? target bound node).map κ.place := by
  induction bound generalizing node with
  | zero => rfl
  | succ bound ih =>
      have hcontext : (t.get (κ.place node)).context = (s.get node).context.map κ.place := by
        rw [h.objects]
        rfl
      unfold ErrorStore.contextBefore?
      rw [hcontext]
      cases (s.get node).context with
      | none => rfl
      | some next =>
          dsimp only [Option.map_some]
          by_cases heq : next = target
          · rw [if_pos heq, if_pos (congrArg κ.place heq)]
            rfl
          · rw [if_neg heq, if_neg (place_injective.ne heq)]
            exact ih next

/-- An object in whose context a new error was raised is a new one. -/
theorem le_of_context {last : ErrorId} (he : κ.near.errors.size ≤ e)
    (hlast : (s.get last).context = some e) : κ.near.errors.size ≤ last := by
  by_contra hlt
  rw [h.near.2 last (Nat.lt_of_not_le hlt)] at hlast
  exact absurd (κ.closed.context last e hlast) (Nat.not_lt_of_le he)

/-- Raising a new error comes to the same, whichever error is being handled. -/
theorem linkRaised (handled : Option ErrorId) (he : κ.near.errors.size ≤ e) :
    κ.Matches (s.linkRaised handled e) (t.linkRaised (handled.map κ.place) (κ.place e)) := by
  cases handled with
  | none => exact h
  | some node =>
      dsimp only [ErrorStore.linkRaised, Option.map_some]
      by_cases heq : node = e
      · rw [if_pos heq, if_pos (congrArg κ.place heq)]
        exact h
      · rw [if_neg heq, if_neg (place_injective.ne heq)]
        -- The other store is larger, and so is the bound of the walk in it; beyond the size of the
        -- smaller store the bound makes no difference.
        have hsize : s.size ≤ t.size := by
          rw [h.size]
          omega
        have hcut : κ.Matches (s.cutContext e s.size node)
            (t.cutContext (κ.place e) t.size (κ.place node)) := by
          rw [ErrorStore.cutContext_eq, ErrorStore.cutContext_eq, h.contextBefore?,
            s.contextBefore?_of_size_le e node hsize]
          cases hlast : s.contextBefore? e s.size node with
          | none => exact h
          | some last =>
              obtain ⟨k, -, hnears, rfl⟩ := ErrorStore.contextBefore?_eq_some_iff.mp hlast
              exact h.setContext (h.le_of_context he hnears.ends) none
        exact hcut.setContext he (some node)

theorem originsFrom (bound : Nat) (seen : List ErrorId) (e : ErrorId) :
    t.originsFrom bound (seen.map κ.place) (κ.place e) =
      (s.originsFrom bound seen e).map κ.place := by
  induction bound generalizing seen e with
  | zero => rfl
  | succ bound ih =>
      have horigin : t.origin (κ.place e) = (s.origin e).map κ.place := by
        unfold ErrorStore.origin
        rw [h.objects]
        dsimp only [ErrorObject.relink]
        cases (s.get e).cause with
        | some cause => rfl
        | none =>
            cases (s.get e).suppressContext <;> rfl
      have hseen : (seen.map κ.place).contains (κ.place e) = seen.contains e := by
        rw [Bool.eq_iff_iff, List.contains_iff_mem, List.contains_iff_mem,
          List.mem_map_of_injective place_injective]
      rw [ErrorStore.originsFrom, ErrorStore.originsFrom, hseen, horigin]
      split
      · rfl
      · cases s.origin e with
        | none => rfl
        | some next => exact congrArg (κ.place e :: ·) (ih (e :: seen) next)

/-- An error came from the same errors. -/
theorem origins (e : ErrorId) : t.origins (κ.place e) = (s.origins e).map κ.place := by
  have hsize : s.size < t.size + 1 := by
    rw [h.size]
    omega
  rw [← s.originsFrom_of_size_lt e hsize, ← h.originsFrom]
  rfl

theorem extractSeed (e : ErrorId) : t.extractSeed (κ.place e) = s.extractSeed e := by
  have hchains : ∀ i, (t.get (κ.place i)).chains = (s.get i).chains := by
    intro i
    rw [h.objects]
    rfl
  have hall : ((t.origins (κ.place e)).flatMap fun o => (t.get o).chains) =
      (s.origins e).flatMap fun o => (s.get o).chains := by
    rw [h.origins, List.flatMap_map]
    simp only [hchains]
  rw [ErrorStore.extractSeed, ErrorStore.extractSeed, hall]

/-- The same can be told about an error. -/
theorem info (e : ErrorId) : t.info (κ.place e) = s.info e := by
  rw [ErrorStore.info, ErrorStore.info, h.extractSeed, h.objects]
  rfl

end Matches
end Shift
end SeededTesting
