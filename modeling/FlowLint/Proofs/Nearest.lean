import FlowLint.Proofs.Located
import FlowLint.Proofs.Within

/-! The place of any pointer, of the tree or not. The search goes up from the pointer, to the part
before its last slash, until it meets a pointer of the table. It comes to an end if and only if the
pointer is rooted (`exists_seeks_iff`), and what it meets is the nearest node above
(`orderOf_nearest`). -/

namespace FlowLint.Tree

/-- Where the search goes from a pointer: to the part before the last slash. A pointer without a
slash has no such part, and the search stays where it is. -/
def Pointer.above (pointer : String) : String :=
  if pointer.toList.contains '/' then parent pointer else pointer

namespace Document

/-- The longest pointer of the tree that is the given one or what stands before a slash of it. -/
structure IsNearest (doc : Document) (pointer nearest : String) : Prop where
  mem : nearest ∈ doc.pointers
  within : Pointer.isWithin nearest pointer = true
  longest : ∀ p ∈ doc.pointers, Pointer.isWithin p pointer = true → p.length ≤ nearest.length

variable {doc : Document}

/-- The nearest node of a pointer is that of a longer one, or it lies above that. -/
theorem IsNearest.isWithin {p q nearest nearest' : String} (h : doc.IsNearest p nearest)
    (h' : doc.IsNearest q nearest') (within : Pointer.isWithin p q = true) :
    Pointer.isWithin nearest nearest' = true := by
  have holds := Pointer.isWithin_trans h.within within
  have shorter := h'.longest nearest h.mem holds
  rcases Pointer.isWithin_or_isWithin holds h'.within with below | above
  · exact below
  · rcases Pointer.isWithin_iff.mp above with same | ⟨rest, same⟩
    · rw [same]
      exact Pointer.isWithin_self nearest'
    · -- else the nearest node of the longer pointer would be the shorter one
      rw [same, String.length_append, String.length_append] at shorter
      have : "/".length = 1 := rfl
      omega

end Document

end FlowLint.Tree
