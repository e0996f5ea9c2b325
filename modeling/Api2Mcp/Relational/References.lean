import Api2Mcp.Relational.Table

namespace relational

variable {ρ σ κ : Type} {u : Indexes ρ} {v : Indexes σ}

/-- A foreign key: every row of `child` names a row of `parent`. -/
def References (child : Table u) (fk : ρ → κ) (parent : Table v) (pk : σ → κ) : Prop :=
  ∀ c ∈ child.rows, ∃ p ∈ parent.rows, pk p = fk c

namespace References

variable {child child' : Table u} {fk : ρ → κ} {parent parent' : Table v} {pk : σ → κ}

theorem of_subset (h : References child fk parent pk) (hsub : ∀ c ∈ child'.rows, c ∈ child.rows) :
    References child' fk parent pk := fun c hc => h c (hsub c hc)

/-- The keys of the parent are there still. -/
theorem of_keys (h : References child fk parent pk)
    (hkeys : ∀ p ∈ parent.rows, ∃ p' ∈ parent'.rows, pk p' = pk p) : References child fk parent' pk := by
  intro c hc
  obtain ⟨p, hp, hpk⟩ := h c hc
  obtain ⟨p', hp', hpk'⟩ := hkeys p hp
  exact ⟨p', hp', hpk'.trans hpk⟩

theorem of_grow (h : References child fk parent pk) (hgrow : ∀ p ∈ parent.rows, p ∈ parent'.rows) :
    References child fk parent' pk := h.of_keys fun p hp => ⟨p, hgrow p hp, rfl⟩

theorem insert {c : ρ} (h : References child fk parent pk) (hinsert : child.insert c = some child')
    (hc : ∃ p ∈ parent.rows, pk p = fk c) : References child' fk parent pk := by
  intro c' hc'
  obtain hold | rfl := (Table.mem_of_insert hinsert).mp hc'
  · exact h c' hold
  · exact hc

/-- Rows of the parent are written over, and keep their keys. -/
theorem of_modify {p : σ → Bool} {set : σ → σ} (h : References child fk parent pk)
    (hmodify : parent.modify p set = some parent') (hset : ∀ a, p a = true → pk (set a) = pk a) :
    References child fk parent' pk := by
  refine h.of_keys fun a ha => ?_
  rw [Table.rows_of_modify hmodify]
  refine ⟨_, List.mem_map_of_mem ha, ?_⟩
  split
  · exact hset a ‹_›
  · rfl

/-- Rows of the child are written over. -/
theorem modify {p : ρ → Bool} {set : ρ → ρ} (h : References child fk parent pk)
    (hmodify : child.modify p set = some child')
    (hset : ∀ a, p a = true → ∃ b ∈ parent.rows, pk b = fk (set a)) : References child' fk parent pk := by
  intro c hc
  rw [Table.rows_of_modify hmodify] at hc
  obtain ⟨a, ha, rfl⟩ := List.mem_map.mp hc
  split
  · exact hset a ‹_›
  · exact h a ha

/-- `ON DELETE CASCADE`. -/
theorem cascade [DecidableEq κ] {p : σ → Bool} (h : References child fk parent pk) :
    References (child.delete fun c => ((parent.select p).map pk).contains (fk c)) fk (parent.delete p) pk := by
  intro c hc
  obtain ⟨hc, hkept⟩ := Table.mem_delete.mp hc
  obtain ⟨a, ha, hpk⟩ := h c hc
  refine ⟨a, Table.mem_delete.mpr ⟨ha, ?_⟩, hpk⟩
  rw [← Bool.not_eq_true]
  intro hgone
  rw [← Bool.not_eq_true, List.contains_iff_mem] at hkept
  exact hkept (List.mem_map.mpr ⟨a, Table.mem_select.mpr ⟨ha, hgone⟩, hpk⟩)

end References

end relational
