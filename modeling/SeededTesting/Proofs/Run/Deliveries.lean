import SeededTesting.Proofs.Run.Aloud

/-! # Deliveries of notifications

A notification is delivered to those who are subscribed one after another, up to the first of them
who raises. This module compares what is heard at two places of one list of subscribers, over any
sequence of notifications that are sent to them.
-/

namespace SeededTesting

open Act

/-- A notification that is delivered to a subscriber, and how that ends. -/
structure Delivery where
  notification : Notification ErrorId
  listener : ListenerRef
  ending : Except ErrorId Unit

/-- The deliveries of a notification to subscribers, up to the first who raises. -/
def Audience.deliver (audience : Audience) (n : Notification ErrorId) :
    List ListenerRef → World → List Delivery
  | [], _ => []
  | listener :: rest, w =>
    match (audience.tell n listener).exec w with
    | (.ok (), v) => ⟨n, listener, .ok ()⟩ :: audience.deliver n rest v
    | (.error e, _) => [⟨n, listener, .error e⟩]

/-- How a notification is delivered to subscribers, and how that ends: all of them hear of it in
order, or those up to the first who raises, whose error is the end. -/
inductive Dispatch (n : Notification ErrorId) (listeners : List ListenerRef) :
    List Delivery → Except ErrorId Unit → Prop where
  | all : Dispatch n listeners (listeners.map (⟨n, ·, .ok ()⟩)) (.ok ())
  | upTo (told : List ListenerRef) (last : ListenerRef) (rest : List ListenerRef) (e : ErrorId)
      (h : listeners = told ++ last :: rest) :
      Dispatch n listeners (told.map (⟨n, ·, .ok ()⟩) ++ [⟨n, last, .error e⟩]) (.error e)

namespace Dispatch

variable {n : Notification ErrorId} {listeners : List ListenerRef} {deliveries : List Delivery}
  {ending : Except ErrorId Unit}

/-- One more has heard of it before. -/
theorem cons (h : Dispatch n listeners deliveries ending) (first : ListenerRef) :
    Dispatch n (first :: listeners) (⟨n, first, .ok ()⟩ :: deliveries) ending := by
  cases h with
  | all => exact .all
  | upTo told last rest e h =>
      subst h
      exact .upTo (first :: told) last rest e rfl

theorem listeners_prefix (h : Dispatch n listeners deliveries ending) :
    deliveries.map (·.listener) <+: listeners := by
  cases h with
  | all => simp [Function.comp_def]
  | upTo told last rest e h =>
      subst h
      exact ⟨rest, by simp [Function.comp_def]⟩

theorem notification_eq (h : Dispatch n listeners deliveries ending) {delivery : Delivery}
    (hmem : delivery ∈ deliveries) : delivery.notification = n := by
  cases h with
  | all =>
      obtain ⟨listener, -, rfl⟩ := List.mem_map.mp hmem
      rfl
  | upTo told last rest e h =>
      rcases List.mem_append.mp hmem with hmem | hmem
      · obtain ⟨listener, -, rfl⟩ := List.mem_map.mp hmem
        rfl
      · rw [List.mem_singleton.mp hmem]

/-- If nobody raises, all hear of it. -/
theorem eq_all (h : Dispatch n listeners deliveries ending)
    (hok : ∀ delivery ∈ deliveries, delivery.ending = .ok ()) :
    deliveries = listeners.map (⟨n, ·, .ok ()⟩) := by
  cases h with
  | all => rfl
  | upTo told last rest e h =>
      have hlast := hok ⟨n, last, .error e⟩ (by simp)
      cases hlast

end Dispatch

theorem Audience.dispatch_tellAll (audience : Audience) (n : Notification ErrorId)
    (listeners : List ListenerRef) (w : World) :
    Dispatch n listeners (audience.deliver n listeners w)
      ((audience.tellAll n listeners).exec w).1 := by
  induction listeners generalizing w with
  | nil => exact .all
  | cons listener rest ih =>
      rw [deliver, tellAll]
      rcases htell : (audience.tell n listener).exec w with ⟨e | _, v⟩
      · rw [exec_bind_of_error htell]
        exact .upTo [] listener rest e rfl
      · rw [exec_bind_of_ok htell]
        exact (ih v).cons listener

theorem Audience.exec_notify (audience : Audience) (n : Notification ErrorId) (w : World) :
    (audience.notify n).exec w = (audience.tellAll n w.session.subscribed).exec w :=
  exec_bind_of_ok (exec_get w)

/-! ## What is heard of what is said -/

namespace Saying

/-- The notification that is sent, if it is one. -/
def sent? (saying : Saying) : Option (Notification ErrorId) :=
  match saying.signal with
  | .logged _ => none
  | .sent n => some n

/-- The deliveries to those who are subscribed. -/
def deliveries (audience : Audience) (saying : Saying) : List Delivery :=
  match saying.signal with
  | .logged _ => []
  | .sent n => audience.deliver n saying.world.session.subscribed saying.world

/-- What is heard at a place of the subscriptions. -/
def heardAt? (audience : Audience) (place : Nat) (saying : Saying) :
    Option (Notification ErrorId) :=
  (saying.deliveries audience)[place]?.map (·.notification)

/-- All notifications that are sent, in order. -/
def notifications (said : List Saying) : List (Notification ErrorId) :=
  said.filterMap sent?

theorem notifications_cons (saying : Saying) (said : List Saying) :
    notifications (saying :: said) = saying.sent?.toList ++ notifications said := by
  rw [notifications, List.filterMap_cons]
  cases saying.sent? <;> rfl

end Saying

namespace Audience

variable (audience : Audience)

/-- All deliveries, in the order in which they are made. -/
def deliveries (said : List Saying) : List Delivery :=
  said.flatMap (Saying.deliveries audience)

/-- The notifications that are heard at a place of the subscriptions. -/
def heardAt (place : Nat) (said : List Saying) : List (Notification ErrorId) :=
  said.filterMap (Saying.heardAt? audience place)

/-- The notifications that a listener hears, at whichever places it is subscribed. -/
def heardBy (listener : ListenerRef) (said : List Saying) : List (Notification ErrorId) :=
  ((audience.deliveries said).filter (·.listener = listener)).map (·.notification)

@[simp] theorem deliveries_append (said more : List Saying) :
    audience.deliveries (said ++ more) = audience.deliveries said ++ audience.deliveries more :=
  List.flatMap_append

@[simp] theorem heardBy_append (listener : ListenerRef) (said more : List Saying) :
    audience.heardBy listener (said ++ more) =
      audience.heardBy listener said ++ audience.heardBy listener more := by
  simp [heardBy]

theorem heardAt_cons (place : Nat) (saying : Saying) (said : List Saying) :
    audience.heardAt place (saying :: said) =
      (saying.heardAt? audience place).toList ++ audience.heardAt place said := by
  rw [heardAt, List.filterMap_cons]
  cases saying.heardAt? audience place <;> rfl

end Audience

section Lists

variable {α β : Type}

theorem filterMap_sublist_of_imp {f g : α → Option β} (h : ∀ x y, f x = some y → g x = some y)
    (l : List α) : (l.filterMap f).Sublist (l.filterMap g) := by
  induction l with
  | nil => exact .slnil
  | cons x l ih =>
      cases hf : f x with
      | none =>
          rw [List.filterMap_cons_none hf]
          exact ih.trans ((List.sublist_cons_self x l).filterMap g)
      | some y =>
          rw [List.filterMap_cons_some hf, List.filterMap_cons_some (h x y hf)]
          exact ih.cons_cons y

/-- What is found once in a list is found at most once in a part from its start. -/
theorem filter_eq_of_count_eq_one [DecidableEq β] {f : α → β} {l : List α} {whole : List β}
    (hl : l.map f <+: whole) {place : Nat} {x : β} (hplace : whole[place]? = some x)
    (honce : whole.count x = 1) : l.filter (f · = x) = l[place]?.toList := by
  induction l generalizing whole place with
  | nil => rfl
  | cons a l ih =>
      obtain ⟨b, whole, rfl⟩ : ∃ b rest, whole = b :: rest :=
        List.exists_cons_of_ne_nil fun hnil => by simp [hnil] at hl
      obtain ⟨rfl, hrest⟩ := List.cons_prefix_cons.mp hl
      by_cases ha : f a = x
      · subst ha
        rw [List.count_cons_self, Nat.add_eq_right] at honce
        have hnot : f a ∉ whole := List.count_eq_zero.mp honce
        -- The one place where it is found is the first one.
        have hfirst : place = 0 := by
          cases place with
          | zero => rfl
          | succ place =>
              rw [List.getElem?_cons_succ] at hplace
              exact absurd (List.mem_of_getElem? hplace) hnot
        have hnone : l.filter (f · = f a) = [] := by
          rw [List.filter_eq_nil_iff]
          intro other hother heq
          rw [decide_eq_true_iff] at heq
          exact hnot (hrest.subset (List.mem_map.mpr ⟨other, hother, heq⟩))
        subst hfirst
        simp [hnone]
      · have hlater : ∃ later, place = later + 1 := by
          cases place with
          | zero => exact absurd (Option.some.inj hplace) ha
          | succ later => exact ⟨later, rfl⟩
        obtain ⟨later, rfl⟩ := hlater
        rw [List.count_cons_of_ne ha] at honce
        have htail := ih hrest hplace honce
        simpa [ha] using htail

end Lists

/-- How notifications that are sent to one list of listeners are delivered. -/
structure Delivered (audience : Audience) (listeners : List ListenerRef) (said : List Saying) :
    Prop where
  /-- Each of them is delivered in order, up to the first listener who raises. -/
  dispatched : ∀ n v, ⟨.sent n, v⟩ ∈ said →
    Dispatch n listeners (Saying.deliveries audience ⟨.sent n, v⟩) ((audience.notify n).exec v).1
  /-- What is heard at a place is a part of what is heard at an earlier one. -/
  later : ∀ place other, place ≤ other →
    (audience.heardAt other said).Sublist (audience.heardAt place said)
  /-- If nobody raises, everybody hears everything. -/
  everything : (∀ delivery ∈ audience.deliveries said, delivery.ending = .ok ()) →
    ∀ place < listeners.length, audience.heardAt place said = Saying.notifications said
  /-- If nobody raises, a notification is delivered to everybody before the next one is sent. -/
  inTurn : (∀ delivery ∈ audience.deliveries said, delivery.ending = .ok ()) →
    (audience.deliveries said).map (fun delivery => (delivery.notification, delivery.listener)) =
      (Saying.notifications said).flatMap fun n => listeners.map (n, ·)
  /-- A listener that is subscribed once hears what is heard at its place. -/
  own : ∀ place listener, listeners[place]? = some listener → listeners.count listener = 1 →
    audience.heardBy listener said = audience.heardAt place said

namespace Saying

variable {audience : Audience} {listeners : List ListenerRef} {saying : Saying}

/-- If a notification is sent, then to these listeners. -/
def Addresses (listeners : List ListenerRef) (saying : Saying) : Prop :=
  ∀ n, saying.signal = .sent n → saying.world.session.subscribed = listeners

/-- A record is delivered to nobody, a notification to those who are subscribed. -/
theorem deliveries_cases (audience : Audience) (saying : Saying) :
    (saying.sent? = none ∧ saying.deliveries audience = []) ∨
      ∃ n, saying.signal = .sent n ∧ saying.sent? = some n ∧
        Dispatch n saying.world.session.subscribed (saying.deliveries audience)
          ((audience.notify n).exec saying.world).1 := by
  obtain ⟨signal, w⟩ := saying
  cases signal with
  | logged record => exact .inl ⟨rfl, rfl⟩
  | sent n =>
      refine .inr ⟨n, rfl, rfl, ?_⟩
      rw [Audience.exec_notify]
      exact audience.dispatch_tellAll n w.session.subscribed w

/-- What is heard at a place was heard at all earlier places. -/
theorem heardAt?_of_le {place other : Nat} (h : place ≤ other) {n : Notification ErrorId}
    (hheard : saying.heardAt? audience other = some n) :
    saying.heardAt? audience place = some n := by
  rcases deliveries_cases audience saying with ⟨-, hnone⟩ | ⟨m, -, -, hdispatch⟩
  · simp [heardAt?, hnone] at hheard
  · obtain ⟨delivery, hlater, heq⟩ := Option.map_eq_some_iff.mp hheard
    have hlength := (List.getElem?_eq_some_iff.mp hlater).1
    have hthere : place < (saying.deliveries audience).length := Nat.lt_of_le_of_lt h hlength
    have hnotification := hdispatch.notification_eq (List.mem_of_getElem? hlater)
    rw [heardAt?, List.getElem?_eq_getElem hthere, Option.map_some,
      hdispatch.notification_eq (List.getElem_mem hthere), ← hnotification, heq]

/-- A notification that nobody objects to is heard at every place. -/
theorem heardAt?_of_ok (hsaying : saying.Addresses listeners)
    (hok : ∀ delivery ∈ saying.deliveries audience, delivery.ending = .ok ()) {place : Nat}
    (hplace : place < listeners.length) : saying.heardAt? audience place = saying.sent? := by
  rcases deliveries_cases audience saying with ⟨hnone, hnobody⟩ | ⟨n, hsent, hsome, hdispatch⟩
  · rw [hnone, heardAt?, hnobody]
    rfl
  · rw [hsaying n hsent] at hdispatch
    rw [hsome, heardAt?, hdispatch.eq_all hok]
    simp [hplace]

end Saying

section Fixed

variable {audience : Audience} {listeners : List ListenerRef} {said : List Saying}

theorem heardAt_of_ok (hsaid : ∀ saying ∈ said, saying.Addresses listeners)
    (hok : ∀ delivery ∈ audience.deliveries said, delivery.ending = .ok ()) {place : Nat}
    (hplace : place < listeners.length) :
    audience.heardAt place said = Saying.notifications said := by
  induction said with
  | nil => rfl
  | cons saying rest ih =>
      rw [List.forall_mem_cons] at hsaid
      simp only [Audience.deliveries, List.flatMap_cons, List.forall_mem_append] at hok
      rw [Audience.heardAt_cons, Saying.notifications_cons, ih hsaid.2 hok.2,
        Saying.heardAt?_of_ok hsaid.1 hok.1 hplace]

theorem deliveries_of_ok (hsaid : ∀ saying ∈ said, saying.Addresses listeners)
    (hok : ∀ delivery ∈ audience.deliveries said, delivery.ending = .ok ()) :
    (audience.deliveries said).map (fun delivery => (delivery.notification, delivery.listener)) =
      (Saying.notifications said).flatMap fun n => listeners.map (n, ·) := by
  induction said with
  | nil => rfl
  | cons saying rest ih =>
      rw [List.forall_mem_cons] at hsaid
      simp only [Audience.deliveries, List.flatMap_cons, List.forall_mem_append] at hok ih ⊢
      rw [List.map_append, ih hsaid.2 hok.2, Saying.notifications_cons, List.flatMap_append]
      congr 1
      rcases Saying.deliveries_cases audience saying with ⟨hnone, hnobody⟩ | ⟨n, hsent, hsome, h⟩
      · rw [hnobody, hnone]
        rfl
      · rw [hsaid.1 n hsent] at h
        rw [h.eq_all hok.1, hsome]
        simp [Function.comp_def]

/-- A listener that is subscribed once hears at its own place. -/
theorem heardBy_eq_heardAt (hsaid : ∀ saying ∈ said, saying.Addresses listeners) {place : Nat}
    {listener : ListenerRef} (hplace : listeners[place]? = some listener)
    (honce : listeners.count listener = 1) :
    audience.heardBy listener said = audience.heardAt place said := by
  induction said with
  | nil => rfl
  | cons saying rest ih =>
      rw [List.forall_mem_cons] at hsaid
      rw [← List.singleton_append, Audience.heardBy_append, ih hsaid.2, List.singleton_append,
        Audience.heardAt_cons]
      congr 1
      rcases Saying.deliveries_cases audience saying with ⟨-, hnobody⟩ | ⟨n, hsent, -, h⟩
      · simp [Audience.heardBy, Audience.deliveries, Saying.heardAt?, hnobody]
      · rw [hsaid.1 n hsent] at h
        have hfound := filter_eq_of_count_eq_one h.listeners_prefix hplace honce
        simp only [Audience.heardBy, Audience.deliveries, List.flatMap_cons, List.flatMap_nil,
          List.append_nil, hfound, Saying.heardAt?]
        cases (saying.deliveries audience)[place]? <;> rfl

/-- Notifications that are sent to one list of listeners are delivered in order, whatever the
listeners do. -/
theorem delivered_of_addresses (hsaid : ∀ saying ∈ said, saying.Addresses listeners) :
    Delivered audience listeners said where
  dispatched n v hmem := by
    rcases Saying.deliveries_cases audience ⟨.sent n, v⟩ with ⟨hnone, -⟩ | ⟨m, hsent, -, h⟩
    · cases hnone
    · cases hsent
      rwa [hsaid _ hmem n rfl] at h
  later place other h := filterMap_sublist_of_imp (fun _ _ => Saying.heardAt?_of_le h) said
  everything hok place hplace := heardAt_of_ok hsaid hok hplace
  inTurn hok := deliveries_of_ok hsaid hok
  own place listener hplace honce := heardBy_eq_heardAt hsaid hplace honce

end Fixed

end SeededTesting
