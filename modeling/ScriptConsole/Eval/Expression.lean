import ScriptConsole.Eval.Call
import ScriptConsole.Eval.Place
import ScriptConsole.Tag.Wire
import ScriptConsole.Value.Operator

/-! # Expressions -/

namespace ScriptConsole.Eval

/-- Assigns to a place. A compound assignment reads it before the value is evaluated. -/
def assign (ev : Evaluator) (op : AssignOp) (target value : Expr) : Eval Value := do
  let place ← place ev target
  let result ← match op.combines? with
    | none => ev (.expression value)
    | some op => do
      let current ← read place
      pure (current.applyBinary op (← ev (.expression value)))
  write result place
  return result

/-- Evaluates an expression as a truth value. -/
def truth (ev : Evaluator) (expr : Expr) : Eval Bool := do
  return (← ev (.expression expr)).toBool

/-- Applies an operator to two expressions. The logical ones evaluate the second only if
the first leaves the result open. -/
def binary (ev : Evaluator) (op : BinaryOp) (left right : Expr) : Eval Value := do
  match op with
  | .logicalAnd =>
    if ← truth ev left then return .ofBool (← truth ev right) else return .ofBool false
  | .logicalOr =>
    if ← truth ev left then return .ofBool true else return .ofBool (← truth ev right)
  | op =>
    let left ← ev (.expression left)
    let right ← ev (.expression right)
    return left.applyBinary op right

/-- A value as `++` and `--` take it: what is no number is read as a float. -/
def asNumber : Value → Value
  | .int n => .int n
  | .float x => .float x
  | value => .float value.toNumber

/-- Applies an operator to one expression. -/
def unary (ev : Evaluator) (op : UnaryOp) (operand : Expr) : Eval Value := do
  if op.writes then
    let place ← place ev operand
    let old := asNumber (← read place)
    let new := old.applyUnary op
    write new place
    match op with
    | .postIncrement | .postDecrement => return old
    | _ => return new
  else return (← ev (.expression operand)).applyUnary op

/-- The value of a literal. A tagged one is the tag of its text, which is made and held
if there is none. -/
def literal : Literal → WorldM Value
  | .int value => return .int value
  | .float value => return .float value
  | .text constant => return .text constant.text
  | .tagged constant => do
    match (← get).tags.find? constant.text with
    | some id => return .text (Tag.encode id)
    | none => return .text (Tag.encode (← World.tag constant.text))

/-- A value without its tag: the text that it is the tag of, or the value itself. -/
def detag (world : World) (value : Value) : Value :=
  (((Tag.decode? value.toText).bind world.tags.detag?).map Value.text).getD value

/-- The function that a callee names. -/
def callee? (console : Console) : Callee → Option (Entry Callable)
  | .global name => console.world.functionIn? .global name
  | .qualified space name =>
    (console.world.existingLayer? space).bind fun base => console.world.functionIn? base name
  | .parent name =>
    console.currentLayer?.bind fun layer => console.world.spaces.resolveAfter? layer name

/-- What a warning says about a callee that is not there. -/
def missing : Callee → String
  | .global name => "unable to find function '" ++ name.text ++ "'"
  | .qualified space name =>
    "unable to find function '" ++ displayName (some space) name ++ "'"
  | .parent name => "no parent function '" ++ name.text ++ "' to call"

/-- Calls a function. -/
def call (ev : Evaluator) (callee : Callee) (arguments : List Expr) : Eval Value := do
  let arguments ← values ev arguments
  match callee? (← get) callee with
  | some entry => ev (.call entry arguments)
  | none =>
    World.warn (missing callee)
    return .empty

/-- Calls a method on the object that an expression refers to. -/
def send (ev : Evaluator) (object : Expr) (method : Symbol) (arguments : List Expr) :
    Eval Value := do
  let object ← ev (.expression object)
  let arguments ← values ev arguments
  match (← world).findByValue? object with
  | some id => sendTo ev id method (.ofNat id :: arguments)
  | none =>
    warnNoObject object "call function" method
    return .empty

/-- Evaluates an expression. -/
def expression (ev : Evaluator) : Expr → Eval Value
  | .assign _ op target value => assign ev op target value
  | .conditional _ test yes no => do
    if ← truth ev test then ev (.expression yes) else ev (.expression no)
  | .binary _ op left right => binary ev op left right
  | .unary _ op operand => unary ev op operand
  | .literal _ value => literal value
  | .variable mark scope name indices => do
    read (← place ev (.variable mark scope name indices))
  | .slot mark object field indices => do read (← place ev (.slot mark object field indices))
  | .call _ callee arguments => call ev callee arguments
  | .send _ object method arguments => send ev object method arguments
  | .object declaration => return .ofNat ((← ev (.declare declaration)).getD 0)
  | .detag _ operand => do
    let value ← ev (.expression operand)
    return detag (← world) value

end ScriptConsole.Eval
