import ChipEight.Checksum
import ChipEight.CommandLine.Analyze
import ChipEight.CommandLine.Arguments
import ChipEight.CommandLine.Emulate
import ChipEight.CommandLine.Options
import ChipEight.CommandLine.Session
import ChipEight.Config.Basic
import ChipEight.Config.Rules
import ChipEight.Config.Shared
import ChipEight.Config.Storage
import ChipEight.Datum
import ChipEight.Describe
import ChipEight.Display
import ChipEight.ErrorLog
import ChipEight.Event
import ChipEight.EventBus
import ChipEight.Failure
import ChipEight.Fault
import ChipEight.Files
import ChipEight.Instruction
import ChipEight.Journal
import ChipEight.Json.Printer
import ChipEight.Json.Reader
import ChipEight.Keypad
import ChipEight.Machine
import ChipEight.Main
import ChipEight.Marked
import ChipEight.Memory
import ChipEight.Number.Basic
import ChipEight.Number.Binary64
import ChipEight.Number.Decimal
import ChipEight.Number.Shortest
import ChipEight.Observers
import ChipEight.Picture.Basic
import ChipEight.Picture.Frame
import ChipEight.Picture.Palette
import ChipEight.Picture.Png
import ChipEight.Random.ByteSource
import ChipEight.Random.Twister
import ChipEight.Registers
import ChipEight.Request.Configure
import ChipEight.Request.Parts
import ChipEight.Request.Reply
import ChipEight.Request.Watch
import ChipEight.Request.Whole
import ChipEight.System
import ChipEight.Text.Casing
import ChipEight.Text.Fraction
import ChipEight.Text.Lowercase
import ChipEight.Text.Numeral
import ChipEight.Text.Printable
import ChipEight.Text.Quoted
import ChipEight.Text.Uppercase
import ChipEight.Timers
import ChipEight.Trace.Basic
import ChipEight.Trace.Query
import ChipEight.Trace.Storage
import ChipEight.Window
import ChipEight.Yaml.Printer
import ChipEight.Yaml.Reader
import ChipEight.Yaml.Scalar
import ChipEight.Proofs.BlockAccess
import ChipEight.Proofs.Drawing
import ChipEight.Proofs.InstructionTable
import ChipEight.Proofs.Conformity
import ChipEight.Proofs.StepFailure
import ChipEight.Proofs.CleanFailure
import ChipEight.Proofs.CallReturn
import ChipEight.Proofs.KeyDelivery
import ChipEight.Proofs.Turns
import ChipEight.Proofs.Outcome
import ChipEight.Proofs.Layout
import ChipEight.Proofs.GlyphGuard
import ChipEight.Proofs.RegisterRange
import ChipEight.Proofs.Notices
import ChipEight.Proofs.Broadcast
import ChipEight.Proofs.KeyWait
import ChipEight.Proofs.Overdraw
import ChipEight.Proofs.Transparency
import ChipEight.Proofs.Continuity
import ChipEight.Proofs.FreshStart
import ChipEight.Proofs.Peripherals
import ChipEight.Proofs.Ticking
import ChipEight.Proofs.Requests
import ChipEight.Proofs.Tones
import ChipEight.Proofs.RandomStream
import ChipEight.Proofs.Redraw
import ChipEight.Proofs.Timekeeping
import ChipEight.Proofs.Executions
import ChipEight.Proofs.Recording
import ChipEight.Proofs.Accounting
import ChipEight.Proofs.Merging
import ChipEight.Proofs.Settings
import ChipEight.Proofs.FloatParts
import ChipEight.Proofs.Rounding
import ChipEight.Proofs.Arithmetic
import ChipEight.Proofs.Nearest
import ChipEight.Proofs.Carrying
import ChipEight.Proofs.Rates
import ChipEight.Proofs.Usability
import ChipEight.Proofs.PartialLoad
import ChipEight.Proofs.SpriteHits
import ChipEight.Proofs.WrittenText
import ChipEight.Proofs.ProperReading
import ChipEight.Proofs.Sharing
import ChipEight.Proofs.SavedSettings
import ChipEight.Proofs.Lockstep
import ChipEight.Proofs.TraceFile
import ChipEight.Proofs.TunedSettings
import ChipEight.Proofs.Sessions
import ChipEight.Proofs.EmulatorRun
import ChipEight.Proofs.Bytewise
import ChipEight.Proofs.Transfers
import ChipEight.Proofs.Countdown
import ChipEight.Proofs.DrawNotices
import ChipEight.Proofs.Disassembly
import ChipEight.Proofs.KeySnapshot
import ChipEight.Proofs.Loading
import ChipEight.Proofs.FailedLoad
import ChipEight.Proofs.DottedPaths
import ChipEight.Proofs.Amounts
import ChipEight.Proofs.Askable
import ChipEight.Proofs.DeepMerge
import ChipEight.Proofs.Meaning
import ChipEight.Proofs.OwnPlaces
import ChipEight.Proofs.SharedLoads
import ChipEight.Proofs.Fractions
import ChipEight.Proofs.Debts
import ChipEight.Proofs.RefusedTime
import ChipEight.Proofs.HostKeys
import ChipEight.Proofs.Lines
import ChipEight.Proofs.Dispatch
import ChipEight.Proofs.Retention
import ChipEight.Proofs.KeptEvents
import ChipEight.Proofs.ErrorHistory
import ChipEight.Proofs.ErrorSummary
import ChipEight.Proofs.Snapshots
import ChipEight.Proofs.NearestCycle
import ChipEight.Proofs.RegisterChanges
import ChipEight.Proofs.TraceStatistics
import ChipEight.Proofs.Frequencies
import ChipEight.Proofs.TraceLoading
import ChipEight.Proofs.TraceTransfer
