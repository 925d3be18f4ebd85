import Mathlib.Data.List.Infix
import ShaderGraph.Shader.Sink

/-!
# Sections only grow

Whatever is added to a sink goes to the end of one section, or is left out; the others stay as they
are. A property goes to the end of the registered ones, and its declaration to the end of the
declarations.

* `chunks_addChunk_self`, `chunks_addChunk_of_ne` : the sections after a chunk was added;
* `Grows` : everything a sink holds stands at the beginning of what another one holds;
* `grows_addChunk`, `grows_addProperty` : the two ways to add.
-/

namespace ShaderGraph

theorem prefix_addTo (chunks : List String) (text : String) (unique : Bool) :
    chunks <+: addTo chunks text unique := by
  unfold addTo
  split
  · exact List.prefix_refl _
  · exact List.prefix_append _ _

namespace Sink

variable {k k' k'' : Sink} {s s' : Section} {text : String} {unique : Bool}

section Chunks

theorem chunks_addChunk_self :
    (k.addChunk s text unique).chunks s = addTo (k.chunks s) text unique := by
  cases s <;> rfl

theorem chunks_addChunk_of_ne (h : s' ≠ s) :
    (k.addChunk s text unique).chunks s' = k.chunks s' := by
  cases s <;> cases s' <;> first | rfl | exact absurd rfl h

theorem registered_addChunk : (k.addChunk s text unique).registered = k.registered := by
  cases s <;> rfl

end Chunks

section Growth

/-- Each section and the properties begin with what they held before. -/
structure Grows (k k' : Sink) : Prop where
  chunks : ∀ s, k.chunks s <+: k'.chunks s
  registered : k.registered <+: k'.registered

theorem Grows.refl (k : Sink) : k.Grows k :=
  ⟨fun _ => List.prefix_refl _, List.prefix_refl _⟩

theorem Grows.trans (h : k.Grows k') (h' : k'.Grows k'') : k.Grows k'' :=
  ⟨fun s => (h.chunks s).trans (h'.chunks s), h.registered.trans h'.registered⟩

theorem grows_addChunk (k : Sink) (s : Section) (text : String) (unique : Bool) :
    k.Grows (k.addChunk s text unique) := by
  refine ⟨fun s' => ?_, ?_⟩
  · by_cases hs : s' = s
    · rw [hs, chunks_addChunk_self]
      exact prefix_addTo _ text unique
    · rw [chunks_addChunk_of_ne hs]
  · rw [registered_addChunk]

theorem grows_addProperty (k : Sink) (p : Property) : k.Grows (k.addProperty p) := by
  unfold addProperty
  split
  · exact .refl k
  · have hdeclared := grows_addChunk k .properties p.declaration false
    exact ⟨hdeclared.chunks, List.prefix_append _ _⟩

end Growth

end Sink

end ShaderGraph
