import ShaderGraph.Shader.Property
import ShaderGraph.Shader.Settings

/-!
# Shader sections

A pass collects text in six sections, each a list of chunks that only grows at its end. A chunk
added as unique is left out if the section already holds the same text, and a property is registered
once per name.

* `Sink.addChunk`, `Sink.addProperty` : the two ways to add;
* `Sink.assemble` : the shader built from the sections.
-/

namespace ShaderGraph

/-- The sections, in the order of their declaration. -/
inductive Section
  | properties
  | propertyUsages
  | functions
  | vertexToFragment
  | vertex
  | body
deriving DecidableEq

/-- The chunks with one more at the end, left out if it is unique and already present. -/
def addTo (chunks : List String) (text : String) (unique : Bool) : List String :=
  if unique && chunks.contains text then chunks else chunks ++ [text]

/-- The sections of a shader and its properties. -/
structure Sink where
  properties : List String
  propertyUsages : List String
  functions : List String
  vertexToFragment : List String
  vertex : List String
  body : List String
  registered : List Property

namespace Sink

def empty : Sink := ⟨[], [], [], [], [], [], []⟩

/-- The chunks of a section, in the order in which they were added. -/
def chunks (k : Sink) : Section → List String
  | .properties => k.properties
  | .propertyUsages => k.propertyUsages
  | .functions => k.functions
  | .vertexToFragment => k.vertexToFragment
  | .vertex => k.vertex
  | .body => k.body

/-- Add a chunk to one section; the others stay as they are. -/
def addChunk (k : Sink) (s : Section) (text : String) (unique : Bool) : Sink :=
  match s with
  | .properties => { k with properties := addTo k.properties text unique }
  | .propertyUsages => { k with propertyUsages := addTo k.propertyUsages text unique }
  | .functions => { k with functions := addTo k.functions text unique }
  | .vertexToFragment => { k with vertexToFragment := addTo k.vertexToFragment text unique }
  | .vertex => { k with vertex := addTo k.vertex text unique }
  | .body => { k with body := addTo k.body text unique }

/-- Add a chunk whether or not the section holds it already. -/
def addLine (k : Sink) (s : Section) (text : String) : Sink := k.addChunk s text false

/-- Register a property and declare it; a name that is registered already is passed over. -/
def addProperty (k : Sink) (p : Property) : Sink :=
  if k.registered.any (·.name = p.name) then k
  else { k.addLine .properties p.declaration with registered := k.registered ++ [p] }

end Sink

section Assembly

/-- The lines of a text. A line ends at a line feed, and a carriage return before that is no part
of it; the text after the last line feed is a line unless it is empty. `current` holds the
characters of the unfinished line, the last one first. -/
def linesFrom : List Char → List Char → List (List Char)
  | [], [] => []
  | c :: current, [] => [(c :: current).reverse]
  | current, c :: rest =>
    if c = '\n' then
      (if current.head? = some '\r' then current.tail else current).reverse :: linesFrom [] rest
    else linesFrom (c :: current) rest

/-- The lines of a chunk. -/
def chunkLines (chunk : String) : List String := (linesFrom [] chunk.toList).map String.ofList

/-- Every line of every chunk at a depth of tabs. -/
def indented (depth : Nat) (chunks : List String) : String :=
  let tabs := String.ofList (List.replicate depth '\t')
  String.join ((chunks.flatMap chunkLines).map fun line => tabs ++ line ++ "\n")

/-- Chunks at depth two with an empty line after them, nothing if there are none. -/
def paragraph (chunks : List String) : String :=
  if chunks.isEmpty then "" else indented 2 chunks ++ "\n"

/-- The members of the fragment input; the shading language wants at least one. -/
def inputMembers (p : Precision) (chunks : List String) : String :=
  if chunks.isEmpty then "\t\t\t" ++ ConcreteType.vector4.name p ++ " color : COLOR;\n"
  else indented 3 chunks

/-- The surface shader built from the sections. -/
def Sink.assemble (k : Sink) (settings : Settings) : String :=
  String.join
    ["Shader \"", settings.shaderName, "\" \x7b\n",
      "\tProperties \x7b\n",
      indented 2 k.properties,
      "\t\x7d\n",
      "\tSubShader \x7b\n",
      "\t\tTags \x7b \"RenderType\"=\"Opaque\" \x7d\n",
      "\t\tLOD 200\n\n",
      "\t\tCGPROGRAM\n",
      "\t\t#pragma surface surf Standard vertex:vert\n",
      "\t\t#pragma target 3.0\n\n",
      paragraph k.functions,
      paragraph k.propertyUsages,
      "\t\tstruct Input \x7b\n",
      inputMembers settings.precision k.vertexToFragment,
      "\t\t\x7d;\n\n",
      "\t\tvoid vert (inout appdata_full v, out Input o) \x7b\n",
      "\t\t\tUNITY_INITIALIZE_OUTPUT(Input, o);\n",
      indented 3 k.vertex,
      "\t\t\x7d\n\n",
      "\t\tvoid surf (Input IN, inout SurfaceOutputStandard o) \x7b\n",
      indented 3 k.body,
      "\t\t\x7d\n",
      "\t\tENDCG\n",
      "\t\x7d\n",
      "\tFallBack \"Diffuse\"\n",
      "\x7d\n"]

end Assembly

end ShaderGraph
