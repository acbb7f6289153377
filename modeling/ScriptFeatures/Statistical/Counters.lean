import ScriptFeatures.Statistical.Keywords
import ScriptFeatures.Text.Tally
import ScriptFeatures.Text.WordClass

/-! The statistics of a text: counts of some characters and of keywords, and its entropy. -/

namespace ScriptFeatures.Statistical

/-- The statistics of a text. `length` counts characters, `alpha` word characters. -/
structure Counters where
  length : Nat
  spaces : Nat
  parenthesis : Nat
  slash : Nat
  plus : Nat
  point : Nat
  comma : Nat
  semicolon : Nat
  alpha : Nat
  numeric : Nat
  entropy : Float
  stringOperations : Nat
  encodings : Nat
  redirections : Nat
  specific : Nat
  deriving Repr, Inhabited

namespace Counters

/-- The statistics of a text given by its characters. -/
def ofChars (text : List Char) : Counters where
  length := text.length
  spaces := text.count ' '
  parenthesis := text.countP fun c => c = '(' || c = ')'
  slash := text.count '/'
  plus := text.count '+'
  point := text.count '.'
  comma := text.count ','
  semicolon := text.count ';'
  alpha := text.countP Text.isWord
  numeric := text.countP fun c => '0' ≤ c && c ≤ '9'
  entropy := Text.entropy text
  stringOperations := KeywordBucket.stringOperation.count text
  encodings := KeywordBucket.encoding.count text
  redirections := KeywordBucket.urlRedirection.count text
  specific := KeywordBucket.specificBehavior.count text

def ofText (text : String) : Counters :=
  ofChars text.toList

/-- A count as a share of the length; 0 for an empty text. -/
def ratio (c : Counters) (count : Nat) : Float :=
  if c.length = 0 then 0 else count.toFloat / c.length.toFloat

/-- The features of a text, each with the name of its column, in the order of the columns. -/
def features (c : Counters) : List (String × Float) :=
  [("js_length", c.length.toFloat), ("num_spaces", c.spaces.toFloat),
    ("num_parenthesis", c.parenthesis.toFloat), ("num_slash", c.slash.toFloat),
    ("num_plus", c.plus.toFloat), ("num_point", c.point.toFloat),
    ("num_comma", c.comma.toFloat), ("num_semicolon", c.semicolon.toFloat),
    ("num_alpha", c.alpha.toFloat), ("num_numeric", c.numeric.toFloat),
    ("ratio_spaces", c.ratio c.spaces), ("ratio_alpha", c.ratio c.alpha),
    ("ratio_numeric", c.ratio c.numeric), ("ratio_parenthesis", c.ratio c.parenthesis),
    ("ratio_slash", c.ratio c.slash), ("ratio_plus", c.ratio c.plus),
    ("ratio_point", c.ratio c.point), ("ratio_comma", c.ratio c.comma),
    ("ratio_semicolon", c.ratio c.semicolon), ("entropy", c.entropy),
    ("num_string_oper", c.stringOperations.toFloat),
    ("ratio_num_string_oper", c.ratio c.stringOperations),
    ("num_encoding_oper", c.encodings.toFloat),
    ("ratio_num_encoding_oper", c.ratio c.encodings),
    ("num_url_redirection", c.redirections.toFloat),
    ("ratio_num_url_redirection", c.ratio c.redirections),
    ("num_specific_func", c.specific.toFloat),
    ("ratio_num_specific_func", c.ratio c.specific)]

end Counters

end ScriptFeatures.Statistical
