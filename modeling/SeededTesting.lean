import SeededTesting.Candidate
import SeededTesting.Command.Answer
import SeededTesting.Command.Arguments
import SeededTesting.Command.Console
import SeededTesting.Command.Help
import SeededTesting.Command.Request
import SeededTesting.Config
import SeededTesting.Context.Program
import SeededTesting.Context.Stack
import SeededTesting.Derivation
import SeededTesting.Description
import SeededTesting.DisplayName
import SeededTesting.Failure.Augment
import SeededTesting.Failure.Kind
import SeededTesting.Failure.Program
import SeededTesting.Failure.Store
import SeededTesting.HookOrder
import SeededTesting.Log.Line
import SeededTesting.Log.Record
import SeededTesting.Log.Setup
import SeededTesting.Main
import SeededTesting.Notification
import SeededTesting.Random.Generator
import SeededTesting.Random.Slots
import SeededTesting.Random.Source
import SeededTesting.Random.Twister
import SeededTesting.Run.Act
import SeededTesting.Run.Collaborator
import SeededTesting.Run.Event
import SeededTesting.Run.HookProgram
import SeededTesting.Run.Lifecycle
import SeededTesting.Run.NameTest
import SeededTesting.Run.NotifierProgram
import SeededTesting.Run.Opening
import SeededTesting.Run.Report
import SeededTesting.Run.Runner
import SeededTesting.Run.RunnerProgram
import SeededTesting.Run.Script
import SeededTesting.Run.Sequence
import SeededTesting.Run.World
import SeededTesting.Seed.Basic
import SeededTesting.Seed.Chain
import SeededTesting.Seed.Digest
import SeededTesting.Seed.NameHash
import SeededTesting.Suite.Basic
import SeededTesting.Suite.Validation
import SeededTesting.Text.Blank
import SeededTesting.Text.CodePoint
import SeededTesting.Text.Digit
import SeededTesting.Text.Hex
import SeededTesting.Text.Integer
import SeededTesting.Text.Json
import SeededTesting.Text.Layout
import SeededTesting.Text.Markup
import SeededTesting.Text.Quoted
import SeededTesting.Text.Unprintable
import SeededTesting.Proofs.Act.Execution
import SeededTesting.Proofs.Failure.Objects
import SeededTesting.Proofs.World.Growth
import SeededTesting.Proofs.Act.Logic
import SeededTesting.Proofs.Act.Scopes
import SeededTesting.Proofs.Script.Codes
import SeededTesting.Proofs.Script.Induction
import SeededTesting.Proofs.Hooks.Order
import SeededTesting.Proofs.Act.Conduct
import SeededTesting.Proofs.Run.Collaborators
import SeededTesting.Proofs.Run.Stages
import SeededTesting.Proofs.Outcomes
import SeededTesting.Proofs.Run.Making
import SeededTesting.Proofs.Run.Soundness
import SeededTesting.Proofs.Script.Soundness
import SeededTesting.Proofs.Run.Calm
import SeededTesting.Proofs.Run.Telling
import SeededTesting.Proofs.Run.NotificationProtocol
import SeededTesting.Proofs.Run.Whole
import SeededTesting.Proofs.Run.Ledger
import SeededTesting.Proofs.Run.LifecycleRefinement
import SeededTesting.Proofs.Failure.Walks
import SeededTesting.Proofs.Shift.Basic
import SeededTesting.Proofs.Shift.Actions
import SeededTesting.Proofs.Shift.Scripts
import SeededTesting.Proofs.Shift.Stages
import SeededTesting.Proofs.Run.Segments
import SeededTesting.Proofs.Run.Siblings
import SeededTesting.Proofs.Run.Independence
import SeededTesting.Proofs.Seed.Words
import SeededTesting.Proofs.Seed.Iterations
import SeededTesting.Proofs.Text.Literals
import SeededTesting.Proofs.Seed.RoundTrip
import SeededTesting.Proofs.Seed.Canonical
import SeededTesting.Proofs.Seed.Grammar
import SeededTesting.Proofs.Suite.Validity
import SeededTesting.Proofs.Suite.Expansion
import SeededTesting.Proofs.Suite.Checks
import SeededTesting.Proofs.Run.Overrides
import SeededTesting.Proofs.Run.PrintedSeed
import SeededTesting.Proofs.Run.Sequence
import SeededTesting.Proofs.DisplayName.Decoding
import SeededTesting.Proofs.DisplayName.Clashes
import SeededTesting.Proofs.Run.Aloud
import SeededTesting.Proofs.Run.FailureReports
import SeededTesting.Proofs.Run.Reproduction
import SeededTesting.Proofs.Run.Invisibility
import SeededTesting.Proofs.Bond.Basic
import SeededTesting.Proofs.Bond.Actions
import SeededTesting.Proofs.Suite.Map
import SeededTesting.Proofs.Bond.Collaborators
import SeededTesting.Proofs.Run.Orders
import SeededTesting.Proofs.Bond.Stages
import SeededTesting.Proofs.Bond.Runs
import SeededTesting.Proofs.Bond.Scripts
import SeededTesting.Proofs.Run.StackDiscipline
import SeededTesting.Proofs.Run.Noninterference
import SeededTesting.Proofs.Shift.Runs
import SeededTesting.Proofs.Run.Replay
import SeededTesting.Proofs.Run.Openings
import SeededTesting.Proofs.Run.Subscriptions
import SeededTesting.Proofs.Run.Homes
import SeededTesting.Proofs.Run.States
import SeededTesting.Proofs.Run.Courses
import SeededTesting.Proofs.Failure.Recording
import SeededTesting.Proofs.Failure.Origins
import SeededTesting.Proofs.Run.Executions
import SeededTesting.Proofs.Run.Assumptions
import SeededTesting.Proofs.Run.Pairing
import SeededTesting.Proofs.Act.Moments
import SeededTesting.Proofs.Script.Moments
import SeededTesting.Proofs.Bond.Blocks
import SeededTesting.Proofs.Context.Execution
import SeededTesting.Proofs.Context.Moments
import SeededTesting.Proofs.Context.Ambient
import SeededTesting.Proofs.Context.Scopes
import SeededTesting.Proofs.Random.Isolation
import SeededTesting.Proofs.Context.Yields
import SeededTesting.Proofs.Run.Forks
import SeededTesting.Proofs.Hooks.Resolution
import SeededTesting.Proofs.Run.RuleMoments
import SeededTesting.Proofs.Run.RuleEvents
import SeededTesting.Proofs.Run.Nesting
import SeededTesting.Proofs.Run.Deliveries
import SeededTesting.Proofs.Run.Accounts
import SeededTesting.Proofs.Run.RunDeliveries
import SeededTesting.Proofs.Run.IdleRuns
import SeededTesting.Proofs.Config.Flags
import SeededTesting.Proofs.Config.Environments
import SeededTesting.Proofs.Command.Consoles
import SeededTesting.Proofs.Command.Lines
import SeededTesting.Proofs.Command.Messages
import SeededTesting.Proofs.Command.Plan
