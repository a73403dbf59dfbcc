import Scriptling.Builtin.Method
import Scriptling.Builtin.Random
import Scriptling.Builtin.Math

/-!
# The routine libraries

The routines that come with the language, and the library's own, which take their arguments by name as well and
have defaults of their own. `apply` calls whatever can be called.
-/

namespace Scriptling.Builtin

variable [Size.Room]

def languageRoutines : Library :=
  numericRoutines ++ sequenceRoutines ++ objectRoutines ++ textRoutines ++ mathRoutines ++ randomRoutines

/-- A collection made of another, or an empty one if nothing is given. -/
def collecting (make : Datum → Act Datum) : Routine :=
  ⟨.of [orNothing "iterable"], fun _ b => make ((something? (b.value 0)).getD (.tuple []))⟩

/-- The least or greatest value. A default beside several values is refused; the least or greatest of an empty
collection is the default, or nothing. -/
def ownExtreme (name : String) (r : Datum.Relation) : Routine :=
  ⟨{ more := true, named := [orNothing "key", orNothing "default"] }, fun apply b => do
    match b.rest, b.value 1 with
    | [d], default => extremeOf r apply [d] (b.value 0) (some default)
    | args, .none => extreme r apply args (b.value 0) none
    | _, _ => throw (.complaint (.surplusDefault name))⟩

/-- The library's own routines. `locals` are the variables where the routine is called. -/
def ownRoutines (locals : List (String × Datum)) : Library := [
  ("type", .unary (.of [orNothing "obj"]) typeOf),
  ("isinstance", .binary (.exactly ["obj", "classinfo"]) isInstance),
  ("issubclass", .binary (.exactly ["cls", "classinfo"]) isSubclass),
  ("callable", ⟨.exactly ["obj"], fun _ b => return .bool (b.value 0).isCallable⟩),
  ("hasattr", .binary (.exactly ["obj", "name"]) hasProperty),
  ("getattr", ⟨.of [required "obj", required "name", orNothing "default"],
    fun _ b => getProperty (b.value 0) (b.value 1) (some (b.value 2))⟩),
  ("setattr", .ternary (.exactly ["obj", "name", "value"]) setProperty),
  ("delattr", .binary (.exactly ["obj", "name"]) deleteProperty),
  ("str", .unary (.of [defaulting "obj" (.str "")]) displayed),
  ("repr", .unary (.exactly ["obj"]) literal),
  ("format", .binary (.of [required "value", defaulting "format_spec" (.str "")]) formatted),
  ("ascii", .unary (.exactly ["obj"]) asciiLiteral),
  ("int", ⟨.of [defaulting "x" (.int 0), defaulting "base" (.int 10)], fun _ b =>
    match b.value 0 with
    | .str s => toIntInBase (.str s) (b.value 1)
    | d => toInt d⟩),
  ("float", .unary (.of [defaulting "x" (.float 0)]) toFloat),
  ("bool", .unary (.of [defaulting "x" (.bool false)]) toBool),
  ("abs", .unary (.exactly ["x"]) fun d => Act.lift d.absolute),
  ("divmod", .binary (.exactly ["a", "b"]) fun d e => Act.lift (Datum.divMod d e)),
  ("pow", ⟨.of [required "x", required "y", orNothing "z"],
    fun _ b => power (b.value 0) (b.value 1) (something? (b.value 2))⟩),
  ("round", ⟨.of [required "number", orNothing "ndigits"], fun _ b => round (b.value 0) (something? (b.value 1))⟩),
  ("len", .unary (.exactly ["obj"]) length),
  ("range", ⟨.of [required "start", orNothing "stop", defaulting "step" (.int 1)], fun _ b => do
    match b.value 1 with
    | .none =>
      let step := if ← truth (b.value 2) then b.value 2 else .int 1
      range (.int 0) (b.value 0) step
    | stop => range (b.value 0) stop (b.value 2)⟩),
  ("enumerate", .binary (.of [required "iterable", defaulting "start" (.int 0)]) enumerate),
  ("zip", ⟨{ more := true }, fun _ b => zip b.rest false⟩),
  ("sorted", ⟨{ positional := [required "iterable"], named := [orNothing "key", defaulting "reverse" (.bool false)] },
    fun apply b => sorted apply (b.value 0) (b.value 1) (b.value 2)⟩),
  ("reversed", .unary (.exactly ["sequence"]) reversed),
  ("all", ⟨.exactly ["iterable"], fun _ b => do return .bool (← allTrue (b.value 0))⟩),
  ("any", ⟨.exactly ["iterable"], fun _ b => do return .bool (← anyTrue (b.value 0))⟩),
  ("min", ownExtreme "min" .less),
  ("max", ownExtreme "max" .greater),
  ("sum", .binary (.of [required "iterable", defaulting "start" (.int 0)]) sum),
  ("print", ⟨{ more := true,
               named := [defaulting "sep" (.str " "), defaulting "end" (.str "\n"), orNothing "file",
                 defaulting "flush" (.bool false)] }, fun _ b => print b.rest (b.value 0) (b.value 1) (b.value 2)⟩),
  ("input", .unary (.of [defaulting "prompt" (.str "")]) readLine),
  ("dir", ⟨.of [orNothing "obj"], fun _ b =>
    match b.value 0 with
    | .none => localNames locals
    | d => propertyList d⟩),
  ("vars", ⟨.of [orNothing "obj"], fun _ b =>
    match b.value 0 with
    | .none => localDict locals
    | d => propertyDict d⟩),
  ("list", collecting toList),
  ("dict", ⟨{ positional := [orNothing "mapping"], moreNames := true },
    fun _ b => toDict (something? (b.value 0)) b.extra⟩),
  ("tuple", collecting toTuple),
  ("set", collecting fun d => do Act.make (.set (← distinct d))),
  ("frozenset", collecting fun d => return .frozenset (← distinct d))]

/-- Calls a routine of a library by its name. A name without a routine is not modelled. Of the names that the tree
walker finds defined (`globalNames`) these have none: `compile`, `eval`, `exec` and `breakpoint`, which run code;
`globals` and `locals`, which are about their caller; `id`, which tells an address; and `time`, `sleep`, `ctime`,
`gmtime`, `localtime`, `mktime`, `strftime`, `strptime`, `time_ns`, `monotonic`, `monotonic_ns`, `perf_counter`,
`perf_counter_ns`, `process_time`, `process_time_ns`, `thread_time` and `thread_time_ns`. -/
def callIn (library : Library) (apply : Apply) (name : String) (args : List Datum) (named : List (String × Datum)) :
    Act Datum :=
  match library.lookup name with
  | some r => r.call apply args named
  | none => Act.beyond

/-- Calls whatever can be called, with arguments in order and by name. The fuel bounds how deep calls nest in
calls; `locals` are the variables where the call stands. -/
def callWithin (locals : List (String × Datum)) : Nat → Datum → List Datum → List (String × Datum) → Act Datum
  | 0, _, _, _ => Act.beyond
  | fuel + 1, f, args, named =>
    let apply : Apply := fun g xs => callWithin [] fuel g xs []
    match f with
    | .cls name | .builtin name => callIn languageRoutines apply name args named
    | .function name => callIn (ownRoutines locals) apply name args named
    | .method self name => callMethod apply self name args named
    | f => if f.isCallable then Act.beyond else Act.wrongType

def callDepth : Nat := 64

/-- Calls whatever can be called, with arguments in order. -/
def apply : Apply := fun f args => callWithin [] callDepth f args []

end Scriptling.Builtin
