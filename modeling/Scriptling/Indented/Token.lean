import Scriptling.Datum.Text

/-!
# Tokens of indented text

The kinds of token, the tables of words and signs, and the token itself. A token's place is the one where the step
that made it began.
-/

namespace Scriptling.Indented

inductive Kind where
  | leftParen
  | rightParen
  | leftBrace
  | rightBrace
  | leftBracket
  | rightBracket
  | comma
  | dot
  | colon
  | semicolon
  | question
  | at
  | backtick
  | bang
  | bangEqual
  | equal
  | equalEqual
  | greater
  | greaterEqual
  | less
  | lessEqual
  | plus
  | plusEqual
  | minus
  | minusEqual
  | star
  | starEqual
  | starStar
  | slash
  | slashEqual
  | percent
  | percentEqual
  | ampersand
  | pipe
  | caret
  | tilde
  | leftShift
  | rightShift
  | identifier
  | string
  | number
  | and
  | as
  | assert
  | async
  | await
  | break
  | classDef
  | continue
  | define
  | del
  | elif
  | else
  | except
  | false
  | finally
  | for
  | from
  | global
  | if
  | import
  | in
  | is
  | lambda
  | none
  | nonlocal
  | not
  | or
  | pass
  | raise
  | return
  | self
  | super
  | true
  | try
  | while
  | with
  | yield
  | arrow
  | newline
  | indent
  | dedent
  | endMarker
  | error
  deriving Repr, DecidableEq

namespace Kind

def names : List (Kind × String) :=
  [(.leftParen, "LEFT_PAREN"), (.rightParen, "RIGHT_PAREN"), (.leftBrace, "LEFT_BRACE"), (.rightBrace, "RIGHT_BRACE"),
   (.leftBracket, "LEFT_BRACKET"), (.rightBracket, "RIGHT_BRACKET"), (.comma, "COMMA"), (.dot, "DOT"),
   (.colon, "COLON"), (.semicolon, "SEMICOLON"), (.question, "QUESTION"), (.at, "AT"), (.backtick, "BACKTICK"),
   (.bang, "BANG"), (.bangEqual, "BANG_EQUAL"), (.equal, "EQUAL"), (.equalEqual, "EQUAL_EQUAL"),
   (.greater, "GREATER"), (.greaterEqual, "GREATER_EQUAL"), (.less, "LESS"), (.lessEqual, "LESS_EQUAL"),
   (.plus, "PLUS"), (.plusEqual, "PLUS_EQUAL"), (.minus, "MINUS"), (.minusEqual, "MINUS_EQUAL"), (.star, "STAR"),
   (.starEqual, "STAR_EQUAL"), (.starStar, "STAR_STAR"), (.slash, "SLASH"), (.slashEqual, "SLASH_EQUAL"),
   (.percent, "PERCENT"), (.percentEqual, "PERCENT_EQUAL"), (.ampersand, "AMPERSAND"), (.pipe, "PIPE"),
   (.caret, "CARET"), (.tilde, "TILDE"), (.leftShift, "LEFT_SHIFT"), (.rightShift, "RIGHT_SHIFT"),
   (.identifier, "IDENTIFIER"), (.string, "STRING"), (.number, "NUMBER"), (.and, "AND"), (.as, "AS"),
   (.assert, "ASSERT"), (.async, "ASYNC"), (.await, "AWAIT"), (.break, "BREAK"), (.classDef, "CLASS"),
   (.continue, "CONTINUE"), (.define, "DEF"), (.del, "DEL"), (.elif, "ELIF"), (.else, "ELSE"), (.except, "EXCEPT"),
   (.false, "FALSE"), (.finally, "FINALLY"), (.for, "FOR"), (.from, "FROM"), (.global, "GLOBAL"), (.if, "IF"),
   (.import, "IMPORT"), (.in, "IN"), (.is, "IS"), (.lambda, "LAMBDA"), (.none, "NONE"), (.nonlocal, "NONLOCAL"),
   (.not, "NOT"), (.or, "OR"), (.pass, "PASS"), (.raise, "RAISE"), (.return, "RETURN"), (.self, "SELF"),
   (.super, "SUPER"), (.true, "TRUE"), (.try, "TRY"), (.while, "WHILE"), (.with, "WITH"), (.yield, "YIELD"),
   (.arrow, "ANNOTATION"), (.newline, "NEWLINE"), (.indent, "INDENT"), (.dedent, "DEDENT"), (.endMarker, "ENDMARKER"),
   (.error, "ERROR")]

def name (k : Kind) : String := (names.lookup k).getD ""

def ofName? (s : String) : Option Kind := (names.find? (·.2 == s)).map (·.1)

end Kind

structure Token where
  kind : Kind
  lexeme : String
  literal : Datum
  line : Int
  column : Int

namespace Token

def display (t : Token) : String := t.kind.name ++ " " ++ t.lexeme ++ " " ++ t.literal.plainDisplay

def describe (t : Token) : String :=
  "Token(type=TokenType." ++ t.kind.name ++ ", lexeme='" ++ t.lexeme ++ "', literal=" ++
    t.literal.plainDisplay ++ ", line=" ++ Number.intText t.line ++ ", column=" ++ Number.intText t.column ++ ")"

end Token

/-! ## Tables -/

/-- The kinds of the words that are no identifiers. -/
def keywords : List (String × Kind) :=
  [("and", .and), ("as", .as), ("assert", .assert), ("async", .async), ("await", .await),
   ("break", .break), ("class", .classDef), ("continue", .continue), ("def", .define), ("del", .del),
   ("elif", .elif), ("else", .else), ("except", .except), ("False", .false), ("finally", .finally),
   ("for", .for), ("from", .from), ("global", .global), ("if", .if), ("import", .import), ("in", .in),
   ("is", .is), ("lambda", .lambda), ("None", .none), ("nonlocal", .nonlocal), ("not", .not),
   ("or", .or), ("pass", .pass), ("raise", .raise), ("return", .return), ("self", .self),
   ("super", .super), ("True", .true), ("try", .try), ("while", .while), ("with", .with),
   ("yield", .yield)]

def wordKind (word : String) : Kind := (keywords.lookup word).getD .identifier

/-- The kinds of the signs that are tokens by themselves. -/
def singles : List (Char × Kind) :=
  [('(', .leftParen), (')', .rightParen), ('\x7b', .leftBrace), ('\x7d', .rightBrace), ('[', .leftBracket),
   (']', .rightBracket), (',', .comma), ('.', .dot), (':', .colon), (';', .semicolon), ('?', .question),
   ('@', .at), ('\x60', .backtick), ('~', .tilde)]

def doubles : List ((Char × Char) × Kind) :=
  [(('!', '='), .bangEqual), (('=', '='), .equalEqual), (('<', '='), .lessEqual), (('<', '<'), .leftShift),
   (('>', '='), .greaterEqual), (('>', '>'), .rightShift), (('+', '='), .plusEqual), (('-', '='), .minusEqual),
   (('-', '>'), .arrow), (('*', '='), .starEqual), (('*', '*'), .starStar), (('/', '='), .slashEqual)]

/-- How tightly operators bind; a small number binds tightly. -/
def ranks : List (String × Nat) :=
  [("**", 1), ("~", 1), ("+@", 1), ("-@", 1), ("*", 2), ("@", 2), ("/", 2), ("//", 2), ("%", 2), ("+", 3),
   ("-", 3), ("<<", 4), (">>", 4), ("&", 5), ("^", 6), ("|", 7), ("in", 8), ("not in", 8), ("is", 8),
   ("is not", 8), ("<", 8), ("<=", 8), (">", 8), (">=", 8), ("==", 8), ("!=", 8), ("not", 9), ("and", 10),
   ("or", 11)]

def augmentedAssignments : List String :=
  ["+=", "-=", "*=", "/=", "%=", "**=", "//=", "@=", "&=", "|=", "^=", "<<=", ">>="]

def assignments : List String := "=" :: augmentedAssignments

def comparisons : List String := ["==", "!=", "<", "<=", ">", ">=", "in", "not in", "is", "is not"]

def binaryOperators : List String :=
  ["+", "-", "*", "**", "/", "//", "%", "<<", ">>", "&", "|", "^", "~", "and", "or", "is", "is not", "in",
   "not in"]

def unaryOperators : List String := ["+", "-", "~", "not"]

def statementWords : List String :=
  ["if", "for", "while", "try", "with", "def", "class", "async", "return", "yield", "raise", "break",
   "continue", "import", "from", "global", "nonlocal", "assert", "pass", "del"]

def expressionWords : List String := ["True", "False", "None", "lambda", "await"]

def reservedWords : List String := keywords.map (·.1)

def quoteMarks : List String := ["'", "\"", "'''", "\"\"\""]

def blanks : List String := [" ", "\t", "\x0c"]

def lineEnds : List String := ["\n", "\r", "\r\n"]

end Scriptling.Indented
