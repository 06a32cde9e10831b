import Receipt.Layout.Registry
import Receipt.Proofs.Except

/-!
# What a registry that is read declares

A section is declared under a name if the map that is read holds it there and it is not null:
`exists_member_of_get?`. So it is named by its key.
-/
namespace Receipt

theorem Layout.name_of_ofValue {v : Value} {name : Option String} {layout : Layout}
    (h : Layout.ofValue v name = .ok layout) : layout.name = name := by
  have hmap : ∀ r : Except Error (List Row), r.map (fun rows => ⟨rows, name⟩) = .ok layout →
      layout.name = name := by
    intro r hr
    obtain ⟨rows, -, rfl⟩ := map_eq_ok hr
    rfl
  unfold Layout.ofValue at h
  split at h
  · exact hmap _ h
  · exact hmap _ h
  · split at h
    · cases h
    · cases h
      rfl

namespace Registry

/-- A declared section was read from a member that is not null. -/
theorem exists_member_of_get? {members : Members} {registry : Registry} {name : String}
    {layout : Layout} (h : ofMembers members = .ok registry)
    (found : registry.get? name = some layout) :
    ∃ v, (Key.text name, v) ∈ members ∧ v ≠ .null ∧
      Layout.ofValue v (some name) = .ok layout := by
  fun_induction ofMembers members generalizing registry with
  | case1 =>
      cases h
      cases found
  | case2 key rest ih =>
      obtain ⟨_, -, h⟩ := bind_eq_ok h
      obtain ⟨v, hmem, hread⟩ := ih h found
      exact ⟨v, List.mem_cons_of_mem _ hmem, hread⟩
  | case3 key v rest hnull ih =>
      obtain ⟨layout', hlayout, hmore⟩ := bind_eq_ok h
      obtain ⟨more, hrest, hcons⟩ := bind_eq_ok hmore
      cases hcons
      rw [get?] at found
      split at found
      · next hkey =>
        cases found
        subst hkey
        exact ⟨v, List.mem_cons_self, hnull, hlayout⟩
      · obtain ⟨w, hmem, hread⟩ := ih hrest found
        exact ⟨w, List.mem_cons_of_mem _ hmem, hread⟩

/-- A section that is read is named by its key. -/
theorem name_of_get?_ofMembers {members : Members} {registry : Registry} {name : String}
    {layout : Layout} (h : ofMembers members = .ok registry)
    (found : registry.get? name = some layout) : layout.name = some name := by
  obtain ⟨v, -, -, hread⟩ := exists_member_of_get? h found
  exact Layout.name_of_ofValue hread

theorem name_of_get?_ofValue {raw : Value} {registry : Registry} {name : String}
    {layout : Layout} (h : ofValue raw = .ok registry)
    (found : registry.get? name = some layout) : layout.name = some name := by
  unfold ofValue at h
  split at h
  · exact name_of_get?_ofMembers h found
  · cases h

end Registry
end Receipt
