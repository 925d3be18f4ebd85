import ShaderGraph.Binary32
import ShaderGraph.ValueType

/-!
# Math functions

The functions a function node can apply: their arguments' default values, the name called in the
shader, the body of those the shading language lacks, and the names shown to people.
-/

namespace ShaderGraph

inductive MathFunction
  | abs
  | sin
  | cos
  | frac
  | saturate
  | normalize
  | sqrt
  | length
  | oneMinus
  | add
  | subtract
  | multiply
  | divide
  | pow
  | min
  | max
  | step
  | dot
  | reflect
  | lerp
  | clamp
  | smoothstep
deriving DecidableEq

namespace MathFunction

/-- Every function, in menu order. -/
def all : List MathFunction :=
  [abs, sin, cos, frac, saturate, normalize, sqrt, length, oneMinus, add, subtract, multiply,
    divide, pow, min, max, step, dot, reflect, lerp, clamp, smoothstep]

/-- The name of the function in documents. -/
def label : MathFunction → String
  | abs => "Abs"
  | sin => "Sin"
  | cos => "Cos"
  | frac => "Frac"
  | saturate => "Saturate"
  | normalize => "Normalize"
  | sqrt => "Sqrt"
  | length => "Length"
  | oneMinus => "OneMinus"
  | add => "Add"
  | subtract => "Subtract"
  | multiply => "Multiply"
  | divide => "Divide"
  | pow => "Pow"
  | min => "Min"
  | max => "Max"
  | step => "Step"
  | dot => "Dot"
  | reflect => "Reflect"
  | lerp => "Lerp"
  | clamp => "Clamp"
  | smoothstep => "Smoothstep"

/-- The value of each unconnected argument, broadcast to the argument's width. -/
def defaults : MathFunction → List Binary32
  | abs | sin | cos | frac | saturate | sqrt | oneMinus => [.zero]
  | normalize | length => [.one]
  | add | subtract | min | max | step | dot => [.zero, .zero]
  | multiply | divide | pow => [.one, .one]
  | reflect => [.zero, .one]
  | lerp | smoothstep => [.zero, .one, .half]
  | clamp => [.zero, .zero, .one]

/-- Number of arguments. -/
def arity (f : MathFunction) : Nat := f.defaults.length

/-- The name in a call. -/
def callName : MathFunction → String
  | abs => "abs"
  | sin => "sin"
  | cos => "cos"
  | frac => "frac"
  | saturate => "saturate"
  | normalize => "normalize"
  | sqrt => "sqrt"
  | length => "length"
  | oneMinus => "unity_one_minus"
  | add => "unity_add"
  | subtract => "unity_subtract"
  | multiply => "unity_multiply"
  | divide => "unity_divide"
  | pow => "pow"
  | min => "min"
  | max => "max"
  | step => "step"
  | dot => "dot"
  | reflect => "reflect"
  | lerp => "lerp"
  | clamp => "clamp"
  | smoothstep => "smoothstep"

/-- The statement that defines a function the shading language lacks. -/
def body? : MathFunction → Option String
  | oneMinus => some "return 1 - arg1;"
  | add => some "return arg1 + arg2;"
  | subtract => some "return arg1 - arg2;"
  | multiply => some "return arg1 * arg2;"
  | divide => some "return arg1 / arg2;"
  | _ => none

/-- The declared type of the result. -/
def resultType : MathFunction → SlotType
  | length | dot => .fixed .vector1
  | _ => .dynamic

def displayName : MathFunction → String
  | abs => "Abs"
  | sin => "Sin"
  | cos => "Cos"
  | frac => "Fraction"
  | saturate => "Saturate"
  | normalize => "Normalize"
  | sqrt => "Square Root"
  | length => "Length"
  | oneMinus => "One Minus"
  | add => "Add"
  | subtract => "Subtract"
  | multiply => "Multiply"
  | divide => "Divide"
  | pow => "Power"
  | min => "Minimum"
  | max => "Maximum"
  | step => "Step"
  | dot => "Dot Product"
  | reflect => "Reflect"
  | lerp => "Lerp"
  | clamp => "Clamp"
  | smoothstep => "Smoothstep"

/-- The start of the variable names of a node that applies the function. -/
def slug : MathFunction → String
  | abs => "abs"
  | sin => "sin"
  | cos => "cos"
  | frac => "frac"
  | saturate => "saturate"
  | normalize => "normalize"
  | sqrt => "sqrt"
  | length => "length"
  | oneMinus => "oneminus"
  | add => "add"
  | subtract => "subtract"
  | multiply => "multiply"
  | divide => "divide"
  | pow => "pow"
  | min => "min"
  | max => "max"
  | step => "step"
  | dot => "dot"
  | reflect => "reflect"
  | lerp => "lerp"
  | clamp => "clamp"
  | smoothstep => "smoothstep"

end MathFunction

end ShaderGraph
