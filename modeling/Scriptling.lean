import Scriptling.Builtin.Toolkit
import Scriptling.Catalogue.Item
import Scriptling.Catalogue.Registry
import Scriptling.Command.Package
import Scriptling.Command.Tokens
import Scriptling.Indented.Request
import Scriptling.Main
import Scriptling.Report.Request
import Scriptling.Scaffold.Build
import Scriptling.Walk.Request
import Scriptling.Proofs.Braced.Faithful
import Scriptling.Proofs.Typing.Bounds
import Scriptling.Proofs.Typing.Substitution
import Scriptling.Proofs.Script.Accepted
import Scriptling.Proofs.Script.Agreement
import Scriptling.Proofs.Scope.Constant
import Scriptling.Proofs.Scope.Fork
import Scriptling.Proofs.Scope.Nearest
import Scriptling.Proofs.Braced.Arrow
import Scriptling.Proofs.Script.Tagging
import Scriptling.Proofs.Script.Closure
import Scriptling.Proofs.Walk.Lexical
import Scriptling.Proofs.Braced.Stopping
import Scriptling.Proofs.Freeform.Position
import Scriptling.Proofs.Indented.Lines
import Scriptling.Proofs.Text.Box
import Scriptling.Proofs.Report.Book
