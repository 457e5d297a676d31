import PathLanguage.Name.Pool
import PathLanguage.Pattern.Grammar
import PathLanguage.Template
import PathLanguage.Number.Literal
import PathLanguage.Tree.Path
import PathLanguage.Proofs.Agreement
import PathLanguage.Proofs.Axis
import PathLanguage.Proofs.Bindings.Requests
import PathLanguage.Proofs.Cursor.Lookahead
import PathLanguage.Proofs.Cursor.Merge
import PathLanguage.Proofs.Direct.References
import PathLanguage.Proofs.Enumeration
import PathLanguage.Proofs.Grammar
import PathLanguage.Proofs.Key.Lookup
import PathLanguage.Proofs.NodeSet.Function
import PathLanguage.Proofs.NodeSet.Observation
import PathLanguage.Proofs.Pattern.Check
import PathLanguage.Proofs.Simplification.Selection
import PathLanguage.Proofs.Template
import PathLanguage.Proofs.Tree.Traversal
import PathLanguage.Proofs.NodeSet.Comparison
import PathLanguage.Proofs.Comparison.Exchange
import PathLanguage.Proofs.Sorting
import PathLanguage.Proofs.NumberFormat.Quotation
import PathLanguage.Proofs.NumberFormat.Symbols
import PathLanguage.Proofs.Fragment
import PathLanguage.Proofs.Pattern.CurrentNode
import PathLanguage.Proofs.Pattern.Lookup
import PathLanguage.Proofs.Reduction
import PathLanguage.Proofs.Pattern.Summary
import PathLanguage.Proofs.Termination.Key
import PathLanguage.Proofs.FunctionLibrary
import PathLanguage.Proofs.Tree.Identifier
import PathLanguage.Proofs.Number.Numeral
import PathLanguage.Proofs.Typing
import PathLanguage.Proofs.Name.Sharing
