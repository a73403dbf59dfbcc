import Scriptling.Builtin.Library

/-!
# The global names

What every program of the tree walker finds defined: routines, classes and constants. Some of the routines are known
by name only (`callIn`).
-/

namespace Scriptling.Builtin

def constants : List (String × Datum) := [
  ("True", .bool true),
  ("False", .bool false),
  ("None", .none),
  ("NotImplemented", Datum.notImplemented),
  ("Ellipsis", Datum.ellipsis),
  ("__name__", .str "__main__"),
  ("__file__", .none),
  ("__builtins__", .dict [])]

def classes : List String :=
  ["range", "enumerate", "zip", "reversed", "map", "filter", "slice", "str", "int", "float", "bool", "list", "tuple",
   "dict", "set", "frozenset", "type", "object", "property", "classmethod", "staticmethod", "super", "memoryview",
   "bytearray", "bytes"]

def functions [Size.Room] : List String :=
  ["abs", "min", "max", "sum", "round", "pow", "divmod", "bin", "oct", "hex", "chr", "ord", "hash", "id",
   "isinstance", "issubclass", "callable", "len", "sorted", "all", "any", "iter", "next", "hasattr", "getattr",
   "setattr", "delattr", "dir", "vars", "globals", "locals", "breakpoint", "compile", "eval", "exec", "open",
   "print", "input", "repr", "ascii", "format"] ++ mathRoutines.map (·.1) ++ randomRoutines.map (·.1) ++
  ["time", "sleep", "ctime", "gmtime", "localtime", "mktime", "strftime", "strptime", "time_ns", "monotonic",
   "monotonic_ns", "perf_counter", "perf_counter_ns", "process_time", "process_time_ns", "thread_time",
   "thread_time_ns"]

/-- What tells of the time zone, which is the universal one. -/
def zoneConstants : List (String × Datum) := [
  ("timezone", .int 0),
  ("tzname", .tuple [.str "UTC", .str "UTC"]),
  ("daylight", .int 0)]

def globalNames [Size.Room] : List (String × Datum) :=
  constants ++ classes.map (fun c => (c, .cls c)) ++ functions.map (fun f => (f, .builtin f)) ++ mathConstants ++
    zoneConstants

end Scriptling.Builtin
