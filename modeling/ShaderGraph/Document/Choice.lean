import ShaderGraph.Document.Shape

/-!
# Symbols

Types with finitely many cases are written as the name of the case.
-/

namespace ShaderGraph.Document

/-- The variants that are names only. -/
def Variants.ofNames : List String → Variants
  | [] => .nil
  | name :: names => .symbol name (Variants.ofNames names)

/-- One of the listed cases, written as its label. -/
def symbolShape {α : Type} (all : List α) (label : α → String) : Shape :=
  .choice (Variants.ofNames (all.map label))

/-- The case that a symbol names. -/
def ofSymbol? {α : Type} (all : List α) (label : α → String) : Value → Option α
  | .symbol name => all.find? (label · = name)
  | _ => none

/-- Any text. -/
def anyText : Shape := .text fun _ => true

/-- A whole number of 32 bits. -/
def word32 : Shape := .natural 0xffffffff

end ShaderGraph.Document
