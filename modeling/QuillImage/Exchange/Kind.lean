import QuillImage.Syntax.Node

/-!
# Names of kinds

The names by which exchanged nodes tell their kinds apart, where one constructor
stands for several kinds: operators, comparisons, indexes and ranges.
-/

namespace QuillImage.Exchange

open Syntax

/-- The names of the parameter modes. -/
def modeNames : List (String × Mode) := [("In", .input), ("InOut", .inOut), ("Out", .output)]

/-- The names of the relations. -/
def relationNames : List (String × Relation) :=
  [("Equal", .equal), ("NotEqual", .notEqual), ("Less", .less), ("Greater", .greater),
    ("LessEqual", .lessEqual), ("GreaterEqual", .greaterEqual)]

/-- The kinds with one operand. -/
def unaryNames : List (String × UnaryOp) :=
  [("UnaryMinus", .minus), ("LogicalNot", .not), ("ValidPointer", .validPointer),
    ("PointerDereference", .dereference)]

/-- The kinds with two operands. -/
def binaryNames : List (String × BinaryOp) :=
  [("Disjunction", .disjunction), ("Conjunction", .conjunction), ("ArrayIn", .arrayIn),
    ("DictionaryIn", .dictionaryIn), ("Addition", .addition), ("Subtraction", .subtraction),
    ("Multiplication", .multiplication), ("Division", .division), ("Modulo", .modulo),
    ("Exponentiation", .exponentiation)]

/-- The kinds of comparisons. -/
def comparisonNames : List (String × Compared) :=
  [("BooleanComparison", .boolean), ("NumericComparison", .numeric),
    ("EnumComparison", .enumeration), ("StringComparison", .string),
    ("BytesComparison", .bytes), ("ArrayComparison", .array),
    ("DictionaryComparison", .dictionary), ("RecordComparison", .record),
    ("PointerComparison", .pointer), ("FunctionPointerComparison", .functionPointer)]

/-- The kinds of indexes. -/
def indexNames : List (String × Indexed) :=
  [("ArrayReferenceIndex", .arrayReference), ("ArrayValueIndex", .arrayValue),
    ("DictionaryReferenceIndex", .dictionaryReference),
    ("DictionaryValueIndex", .dictionaryValue)]

/-- The kinds of ranges. -/
def rangeNames : List (String × Sliced) :=
  [("StringRange", .string), ("BytesRange", .bytes), ("ArrayRange", .array)]

end QuillImage.Exchange
