import DialogueScript.ActionLine.Reading
import DialogueScript.Main
import DialogueScript.Proofs.ActionLine.Grammar
import DialogueScript.Proofs.ActionLine.Numbers
import DialogueScript.Proofs.ActionLine.Reads
import DialogueScript.Proofs.ActionLine.Rendering
import DialogueScript.Proofs.ActionLine.TypedValues
import DialogueScript.Proofs.ActionLine.Integers
import DialogueScript.Proofs.ActionLine.Canonical
import DialogueScript.Proofs.ActionLine.Assets
import DialogueScript.Proofs.ActionLine.Retries
import DialogueScript.Proofs.Asset.Words
import DialogueScript.Proofs.File.Tree
import DialogueScript.Proofs.File.Walk
import DialogueScript.Proofs.Number.Grammar
import DialogueScript.Proofs.Number.Magnitude
import DialogueScript.Proofs.Number.Rounding
import DialogueScript.Proofs.Script.Lines
import DialogueScript.Proofs.Script.Recognition
import DialogueScript.Proofs.Script.Report
import DialogueScript.Proofs.Script.Usage
import DialogueScript.Proofs.Script.Balance
import DialogueScript.Proofs.Script.Canonical
import DialogueScript.Proofs.Script.Concatenation
import DialogueScript.Proofs.Script.Layout
import DialogueScript.Proofs.Report.Aggregation
import DialogueScript.Proofs.Verdict
import DialogueScript.Proofs.Json.Grammar
import DialogueScript.Proofs.Json.Printing
import DialogueScript.Proofs.Report.Lossless
import DialogueScript.Proofs.Check
import DialogueScript.Proofs.Script.KnownActions
import DialogueScript.Proofs.Configuration.Text
import DialogueScript.Proofs.Configuration.Spelling
import DialogueScript.Proofs.CommandLine
import DialogueScript.Proofs.Text.LetterCase
import DialogueScript.Proofs.Configuration.Extensions
import DialogueScript.Proofs.Configuration.Truncation
