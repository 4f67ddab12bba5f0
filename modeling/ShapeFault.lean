import ShapeFault.CommandLine
import ShapeFault.Decimal.Basic
import ShapeFault.Decimal.Notation
import ShapeFault.Decimal.Reader
import ShapeFault.Decimal.Shortest
import ShapeFault.Document.Character
import ShapeFault.Document.Gap
import ShapeFault.Document.Layout
import ShapeFault.Document.Mark
import ShapeFault.Document.Scan
import ShapeFault.Eval.Operation
import ShapeFault.Eval.Run
import ShapeFault.Explain
import ShapeFault.Expr.Basic
import ShapeFault.Expr.Construct
import ShapeFault.Expr.Literal
import ShapeFault.Expr.Operator
import ShapeFault.Expr.Outline
import ShapeFault.Expr.Parser
import ShapeFault.Expr.Source
import ShapeFault.Main
import ShapeFault.Policy.Basic
import ShapeFault.Policy.Load
import ShapeFault.Policy.Document
import ShapeFault.Session
import ShapeFault.Shape.Axis
import ShapeFault.Shape.Basic
import ShapeFault.Shape.Broadcast
import ShapeFault.Shape.Concat
import ShapeFault.Shape.Error
import ShapeFault.Shape.Index
import ShapeFault.Shape.Product
import ShapeFault.Shape.Reshape
import ShapeFault.Shape.Slice
import ShapeFault.Tensor.Call
import ShapeFault.Tensor.Error
import ShapeFault.Tensor.Host
import ShapeFault.Tensor.Indexing
import ShapeFault.Tensor.Library
import ShapeFault.Tensor.Nesting
import ShapeFault.Tensor.Number
import ShapeFault.Tensor.Reader
import ShapeFault.Tensor.Value
import ShapeFault.Text.Blank
import ShapeFault.Text.Letter
import ShapeFault.Text.Occurs
import ShapeFault.Text.Quoted
import ShapeFault.Text.Ranges
import ShapeFault.Token.Basic
import ShapeFault.Token.Kind
import ShapeFault.Token.Lexeme
import ShapeFault.Token.Lexer
import ShapeFault.Word
import ShapeFault.Proofs.Lexing.Lexes
import ShapeFault.Proofs.Lexing.Front
import ShapeFault.Proofs.Lexing.Stands
import ShapeFault.Proofs.Lexing.Number
import ShapeFault.Proofs.Lexing.Gap
import ShapeFault.Proofs.Lexing.Form
import ShapeFault.Proofs.Lexing.Longest
import ShapeFault.Proofs.Lexing.Tiling
import ShapeFault.Proofs.Grammar.Phrase
import ShapeFault.Proofs.Grammar.Sound
import ShapeFault.Proofs.Grammar.Complete
import ShapeFault.Proofs.Grammar.Line
import ShapeFault.Proofs.Grammar.Viable
import ShapeFault.Proofs.Grammar.Refusal
import ShapeFault.Proofs.Tree.Parts
import ShapeFault.Proofs.Tree.Substitution
import ShapeFault.Proofs.Source.Genuine
import ShapeFault.Proofs.Source.Fusing
import ShapeFault.Proofs.Source.Reread
import ShapeFault.Proofs.Source.RoundTrip
import ShapeFault.Proofs.Source.Subphrase
import ShapeFault.Proofs.Source.Trimmed
import ShapeFault.Proofs.Eval.Outcome
import ShapeFault.Proofs.Eval.Trap
import ShapeFault.Proofs.Eval.Machine
import ShapeFault.Proofs.Eval.Simulation
import ShapeFault.Proofs.Eval.Agreement
import ShapeFault.Proofs.Eval.Names
import ShapeFault.Proofs.Eval.Classifier
import ShapeFault.Proofs.Shape.Index
import ShapeFault.Proofs.Shape.Slice
import ShapeFault.Proofs.Tensor.Nesting
import ShapeFault.Proofs.Tensor.ListIndex
import ShapeFault.Proofs.Policy.Sentinels
import ShapeFault.Proofs.Session.Diagnose
import ShapeFault.Proofs.Session.Offending
import ShapeFault.Proofs.Outline.Proper
import ShapeFault.Proofs.Outline.Decoding
import ShapeFault.Proofs.Outline.Start
import ShapeFault.Proofs.Outline.Unique
import ShapeFault.Proofs.Shape.WordSlice
import ShapeFault.Proofs.Tensor.ListSlice
import ShapeFault.Proofs.Lexing.NumberValue
import ShapeFault.Proofs.Lexing.Separator
import ShapeFault.Proofs.Grammar.Places
import ShapeFault.Proofs.Session.Respaced
import ShapeFault.Proofs.Eval.Explanation
import ShapeFault.Proofs.Session.Log
import ShapeFault.Proofs.CommandLine.Arguments
import ShapeFault.Proofs.CommandLine.Report
import ShapeFault.Proofs.Shape.Broadcast
import ShapeFault.Proofs.Shape.Assignment
import ShapeFault.Proofs.Shape.Selection
import ShapeFault.Proofs.Shape.Grouping
import ShapeFault.Proofs.Shape.Product
import ShapeFault.Proofs.Shape.Dot
import ShapeFault.Proofs.Shape.Count
import ShapeFault.Proofs.Shape.Result
import ShapeFault.Proofs.Shape.Reshape
import ShapeFault.Proofs.Shape.Reordering
import ShapeFault.Proofs.Shape.Concat
import ShapeFault.Proofs.Shape.Respelling
import ShapeFault.Proofs.Shape.Placement
import ShapeFault.Proofs.Tensor.Failure
import ShapeFault.Proofs.Tensor.Mismatch
import ShapeFault.Proofs.Shape.Parts
import ShapeFault.Proofs.Shape.Stop
import ShapeFault.Proofs.Tensor.ShapeOf
import ShapeFault.Proofs.Tensor.Sizes
import ShapeFault.Proofs.Shape.Offender
import ShapeFault.Proofs.Tensor.Abort
import ShapeFault.Proofs.Word.Division
import ShapeFault.Proofs.Tensor.Integers
import ShapeFault.Proofs.Tensor.Equality
import ShapeFault.Proofs.Lexing.Quotation
import ShapeFault.Proofs.Lexing.Progress
import ShapeFault.Proofs.Grammar.Pointing
import ShapeFault.Proofs.Grammar.Numbers
import ShapeFault.Proofs.Decimal.Text
import ShapeFault.Proofs.Tensor.ReadBack
import ShapeFault.Proofs.Descent.Basic
import ShapeFault.Proofs.Descent.Follows
import ShapeFault.Proofs.Descent.Operators
import ShapeFault.Proofs.Descent.Expression
import ShapeFault.Proofs.Descent.Brackets
import ShapeFault.Proofs.Descent.Line
