import ScriptHost.Binary64.Layout
import ScriptHost.Text.Quoted
import ScriptHost.Value.Basic

/-!
# Text of values

`debug` tells kinds apart: a `long` ends in `L`, a number is written in the marked layout and a text
is quoted. `display` writes numbers in the plain layout and texts bare. Objects and functions show
their identity only.
-/

namespace ScriptHost.Val

def debug : Val → String
  | .undefined => "undefined"
  | .bool b => if b then "true" else "false"
  | .int i => toString i.toInt
  | .long l => toString l.toInt ++ "L"
  | .number x => x.marked
  | .str s => Text.quote s
  | .object o => "[object #" ++ toString o.id ++ "]"
  | .function f => "[function " ++ f.name ++ "]"

def display : Val → String
  | .str s => s
  | .number x => x.plain
  | v => v.debug

end ScriptHost.Val
