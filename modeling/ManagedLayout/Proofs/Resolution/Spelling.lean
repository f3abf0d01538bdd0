import ManagedLayout.Proofs.Resolution.Arena

/-!
# Spellings in the arena

A spelling is made of descriptors that stand before each other, as a tree is, so that it does not
change when the arena grows.
-/

namespace ManagedLayout

theorem asterisks_succ (count : Nat) : asterisks (count + 1) = "*" ++ asterisks count := by
  rw [asterisks, List.replicate_succ, String.ofList_cons]
  rfl

namespace ResolutionState.ArenaGrows

variable {before after : ResolutionState} {id : DescriptorId}

theorem ownerText_eq (grows : before.ArenaGrows after)
    (stored : id.position < before.descriptors.size) (qualified : Bool) :
    after.ownerText id qualified = before.ownerText id qualified := by
  induction id using DescriptorId.induction with
  | step id ih =>
    have earlier (other : DescriptorId) (isEarlier : other.position < id.position) :
        after.ownerText other qualified = before.ownerText other qualified ∧
          after.descriptor other = before.descriptor other := by
      have otherStored := Nat.lt_trans isEarlier stored
      exact ⟨ih other isEarlier otherStored, grows.descriptor_eq otherStored⟩
    rw [ownerText, ownerText, grows.descriptor_eq stored]
    simp +contextual only [earlier]

theorem rootNamespace_eq (grows : before.ArenaGrows after)
    (stored : id.position < before.descriptors.size) :
    after.rootNamespace id = before.rootNamespace id := by
  induction id using DescriptorId.induction with
  | step id ih =>
    have earlier (other : DescriptorId) (isEarlier : other.position < id.position) :
        after.rootNamespace other = before.rootNamespace other :=
      ih other isEarlier (Nat.lt_trans isEarlier stored)
    rw [rootNamespace, rootNamespace, grows.descriptor_eq stored]
    simp +contextual only [earlier]

theorem argumentTexts_eq (grows : before.ArenaGrows after)
    (stored : id.position < before.descriptors.size) :
    after.argumentTexts id = before.argumentTexts id := by
  induction id using DescriptorId.induction with
  | step id ih =>
    have earlier (other : DescriptorId) (isEarlier : other.position < id.position) :
        after.ownerText other false = before.ownerText other false ∧
          after.descriptor other = before.descriptor other ∧
            after.argumentTexts other = before.argumentTexts other := by
      have otherStored := Nat.lt_trans isEarlier stored
      exact ⟨grows.ownerText_eq otherStored false, grows.descriptor_eq otherStored,
        ih other isEarlier otherStored⟩
    rw [argumentTexts, argumentTexts, grows.descriptor_eq stored]
    simp +contextual only [earlier]

theorem bareText_eq (grows : before.ArenaGrows after)
    (stored : id.position < before.descriptors.size) : after.bareText id = before.bareText id := by
  rw [bareText, bareText, grows.descriptor_eq stored, grows.argumentTexts_eq stored]

theorem descriptorText_eq (grows : before.ArenaGrows after)
    (stored : id.position < before.descriptors.size) (qualified withArguments : Bool) :
    after.descriptorText id qualified withArguments =
      before.descriptorText id qualified withArguments := by
  rw [descriptorText, descriptorText, grows.ownerText_eq stored, grows.bareText_eq stored,
    grows.descriptor_eq stored]

theorem usageText_eq {usage : Usage} (grows : before.ArenaGrows after)
    (stored : usage.descriptor.position < before.descriptors.size) (qualified : Bool) :
    after.usageText usage qualified = before.usageText usage qualified := by
  rw [usageText, usageText, grows.descriptorText_eq stored]

end ResolutionState.ArenaGrows

end ManagedLayout
