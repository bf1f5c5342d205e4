/-! # Notifications

While a suite is run, listeners are told about every candidate that starts and finishes, about
those that are ignored, and about every failure. A notification about a failure refers to its
error, either as an object or as what can be told about it.
-/

namespace SeededTesting

inductive NotificationKind where
  | started
  | ignored
  | assumptionFailed
  | failed
  | finished
deriving DecidableEq, Repr

namespace NotificationKind

def all : List NotificationKind := [.started, .ignored, .assumptionFailed, .failed, .finished]

def name : NotificationKind → String
  | .started => "started"
  | .ignored => "ignored"
  | .assumptionFailed => "assumption_failed"
  | .failed => "failed"
  | .finished => "finished"

end NotificationKind

/-- What happened to the candidate, or to the suite, of a display name. -/
structure Notification (Error : Type) where
  kind : NotificationKind
  name : String
  error : Option Error := none
  /-- The place in a recording, once it has been recorded. -/
  seq : Option Nat := none
deriving DecidableEq, Repr

namespace Notification

/-- Tells about the error of a notification in another way. -/
def mapError {α β : Type} (tell : α → β) (n : Notification α) : Notification β :=
  { kind := n.kind, name := n.name, error := n.error.map tell, seq := n.seq }

/-- The places of the recorded notifications of a kind. -/
def positions {α : Type} (kind : NotificationKind) (ns : List (Notification α)) : List Nat :=
  (ns.filter (·.kind = kind)).filterMap (·.seq)

/-- The names in the notifications of a kind. -/
def names {α : Type} (kind : NotificationKind) (ns : List (Notification α)) : List String :=
  (ns.filter (·.kind = kind)).map (·.name)

end Notification

end SeededTesting
