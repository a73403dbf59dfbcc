import Scriptling.Text.Lines

/-!
# Names of properties

The properties that the values of each class have, whatever they hold: first those that every value has, then
for each class what it adds. Most are names of the language's own, which stand between underscores.
-/

namespace Scriptling.Datum

open Text (words)

/-- Names between underscores. -/
def special (line : String) : List String := (words line).map fun name => "__" ++ name ++ "__"

/-- Operators and their counterparts from the right. -/
def turning (line : String) : List String := special line ++ (words line).map fun name => "__r" ++ name ++ "__"

def commonNames : List String :=
  special "class delattr dir doc eq format ge getattribute getstate gt hash init init_subclass le lt ne new" ++
  special "reduce reduce_ex repr setattr sizeof str subclasshook"

/-! ## Numbers -/

def numberNames : List String :=
  turning "add mul pow sub truediv" ++ special "abs bool getnewargs neg pos" ++ words "conjugate imag real"

def realNames : List String :=
  numberNames ++ turning "divmod floordiv mod" ++ special "ceil float floor int round trunc" ++
  words "as_integer_ratio"

/-- The properties of whole numbers and truth values. -/
def intNames : List String :=
  realNames ++ turning "and lshift or rshift xor" ++ special "index invert" ++
  words "bit_count bit_length denominator from_bytes numerator to_bytes"

/-! ## Sequences and collections -/

def collectionNames : List String := special "contains iter len"

def sequenceNames : List String := collectionNames ++ special "add getitem mul rmul" ++ words "count index"

/-- The properties of sequences that can grow. -/
def growingNames : List String :=
  sequenceNames ++ special "delitem iadd imul setitem" ++
  words "append clear copy extend insert pop remove reverse"

/-- The properties of texts and bytes. -/
def letterNames : List String :=
  sequenceNames ++ special "mod rmod" ++
  words "capitalize center endswith expandtabs find isalnum isalpha isascii isdigit islower isspace istitle isupper" ++
  words "join ljust lower lstrip maketrans partition removeprefix removesuffix replace rfind rindex rjust rpartition" ++
  words "rsplit rstrip split splitlines startswith strip swapcase title translate upper zfill"

def byteNames : List String := letterNames ++ words "decode fromhex hex"

def frozensetNames : List String :=
  collectionNames ++ turning "and or sub xor" ++ special "class_getitem" ++
  words "copy difference intersection isdisjoint issubset issuperset symmetric_difference union"

def setNames : List String :=
  frozensetNames ++ special "iand ior isub ixor" ++
  words "add clear difference_update discard intersection_update pop remove symmetric_difference_update update"

def dictNames : List String :=
  collectionNames ++ special "class_getitem delitem getitem ior or reversed ror setitem" ++
  words "clear copy fromkeys get items keys pop popitem setdefault update values"

/-! ## Functions and classes -/

/-- The properties of functions that come with the language. -/
def nativeNames : List String := special "call module name qualname self text_signature"

def functionNames : List String :=
  special "annotations builtins call closure code defaults dict get globals kwdefaults module name qualname"

def classNames : List String :=
  special "abstractmethods annotations base bases basicsize call dict dictoffset flags instancecheck itemsize module" ++
  special "mro name or prepare qualname ror subclasscheck subclasses text_signature weakrefoffset" ++ words "mro"

/-- The properties that the values of a class add to the common ones. -/
def namesOf : String → List String
  | "NoneType" => special "bool"
  | "int" | "bool" => intNames
  | "float" => realNames ++ special "getformat" ++ words "fromhex hex is_integer"
  | "complex" => numberNames ++ special "complex"
  | "str" =>
    letterNames ++ special "getnewargs" ++
    words "casefold encode format format_map isdecimal isidentifier isnumeric isprintable"
  | "bytes" => byteNames ++ special "bytes getnewargs"
  | "bytearray" => byteNames ++ growingNames ++ special "alloc"
  | "list" => growingNames ++ special "class_getitem reversed" ++ words "sort"
  | "tuple" => sequenceNames ++ special "class_getitem getnewargs"
  | "set" => setNames
  | "frozenset" => frozensetNames
  | "dict" => dictNames
  | "range" => collectionNames ++ special "bool getitem reversed" ++ words "count index start step stop"
  | "function" => functionNames
  | "builtin_function_or_method" => nativeNames
  | "type" => classNames
  | "Attrs" => special "dict module weakref"
  | c =>
    if c.endsWith "iterator" || (words "enumerate zip map filter reversed").contains c then special "iter next" else []

/-- The classes whose properties are all named. -/
def chartedClasses : List String :=
  words "NoneType int bool float complex str bytes bytearray list tuple set frozenset dict range function" ++
  words "builtin_function_or_method type object Attrs"

/-- The properties that hold values other than functions, and not always the same. -/
def untoldNames : List String :=
  special "abstractmethods annotations basicsize builtins closure code defaults dict dictoffset doc flags globals" ++
  special "itemsize kwdefaults module name qualname self text_signature weakrefoffset" ++
  words "denominator imag numerator real start step stop"

end Scriptling.Datum
