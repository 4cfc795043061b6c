import LiveDoc.Main
import LiveDoc.Interpreter.Scripted
import LiveDoc.Proofs.Prompt.Search
import LiveDoc.Proofs.Session.Unread
import LiveDoc.Proofs.Session.Turn
import LiveDoc.Proofs.Session.Scan
import LiveDoc.Proofs.Session.Course
import LiveDoc.Proofs.Session.Running
import LiveDoc.Proofs.Session.Pipes
import LiveDoc.Proofs.Session.Attribution
import LiveDoc.Proofs.Session.Responder
import LiveDoc.Proofs.Session.Conversation
import LiveDoc.Proofs.Verifier.FailFast
import LiveDoc.Proofs.Verifier.History
import LiveDoc.Proofs.CommandLine.Outcome
import LiveDoc.Proofs.Outline.Adjacency
import LiveDoc.Proofs.Session.Exit
import LiveDoc.Proofs.Session.Undelivered
import LiveDoc.Proofs.Outline.Scan
import LiveDoc.Proofs.Outline.Manuscript
import LiveDoc.Proofs.Diff.Lossless
import LiveDoc.Proofs.Outline.LineEnds
import LiveDoc.Proofs.Verifier.Writes
import LiveDoc.Proofs.Session.LastWords
import LiveDoc.Proofs.Verifier.LineEnds
import LiveDoc.Proofs.Report.Replay
import LiveDoc.Proofs.Diff.Rows
import LiveDoc.Proofs.Diagnostic.ReadBack
import LiveDoc.Proofs.Outline.Places
import LiveDoc.Proofs.Text.Capture
import LiveDoc.Proofs.Check.Files
import LiveDoc.Proofs.Outline.AnyEvents
import LiveDoc.Proofs.Outline.Flattening
import LiveDoc.Proofs.Config.Timeout
import LiveDoc.Proofs.Config.Overlay
