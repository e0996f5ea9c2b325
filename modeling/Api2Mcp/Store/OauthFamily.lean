import Api2Mcp.Store.OauthTokens

namespace api2mcp.store

open relational
open api2mcp.entity.oauth_tokens

/-- The tokens table of a store. -/
abbrev Tokens := Table indexes

/-- The same row, possibly revoked since. -/
def Aged (r r' : Model) : Prop := r'.revoke = r.revoke ∧ (r.revoked = true → r'.revoked = true)

namespace Aged

variable {r r' r'' : Model}

theorem refl (r : Model) : Aged r r := ⟨rfl, id⟩

theorem trans (h : Aged r r') (h' : Aged r' r'') : Aged r r'' :=
  ⟨h'.1.trans h.1, fun hr => h'.2 (h.2 hr)⟩

theorem id_eq (h : Aged r r') : r'.id = r.id := by
  simpa using congrArg Model.id h.1

theorem family_eq (h : Aged r r') : r'.family_id = r.family_id := by
  simpa using congrArg Model.family_id h.1

theorem hash_eq (h : Aged r r') : r'.refresh_token_hash = r.refresh_token_hash := by
  simpa using congrArg Model.refresh_token_hash h.1

theorem created_at_eq (h : Aged r r') : r'.created_at = r.created_at := by
  simpa [Model.revoke] using congrArg Model.created_at h.1

theorem revoke (r : Model) : Aged r r.revoke := ⟨rfl, fun _ => rfl⟩

end Aged

/-- No row goes away, changes anything but `revoked`, or is revived. -/
def Keeps (t t' : Tokens) : Prop := ∀ r ∈ t.rows, ∃ r' ∈ t'.rows, Aged r r'

/-- Every row of the family was there before. -/
def NoneIssued (f : Uuid) (t t' : Tokens) : Prop :=
  ∀ r' ∈ t'.rows, r'.family_id = f → ∃ r ∈ t.rows, Aged r r'

/-- A token of the family that can still be used. -/
def Live (f : Uuid) (t : Tokens) (r : Model) : Prop :=
  r ∈ t.rows ∧ r.family_id = f ∧ r.revoked = false

theorem Keeps.refl (t : Tokens) : Keeps t t := fun r hr => ⟨r, hr, .refl r⟩

theorem Keeps.trans {t t' t'' : Tokens} (h : Keeps t t') (h' : Keeps t' t'') : Keeps t t'' := by
  intro r hr
  obtain ⟨r', hr', haged⟩ := h r hr
  obtain ⟨r'', hr'', haged'⟩ := h' r' hr'
  exact ⟨r'', hr'', haged.trans haged'⟩

/-- A revoked row stays revoked under its id. -/
theorem Keeps.revoked {t t' : Tokens} (h : Keeps t t') {r r' : Model} (hr : r ∈ t.rows)
    (hr' : r' ∈ t'.rows) (hid : r'.id = r.id) (hrevoked : r.revoked = true) :
    r'.revoked = true := by
  obtain ⟨a, ha, haged⟩ := h r hr
  have hsame : r' = a := eq_of_id hr' ha (hid.trans haged.id_eq.symm)
  rw [hsame]
  exact haged.2 hrevoked

theorem NoneIssued.refl (f : Uuid) (t : Tokens) : NoneIssued f t t :=
  fun r hr _ => ⟨r, hr, .refl r⟩

/-- A live row of the family was live before. -/
theorem NoneIssued.live {f : Uuid} {t t' : Tokens} (h : NoneIssued f t t') {r' : Model}
    (hlive : Live f t' r') : ∃ r, Live f t r ∧ Aged r r' := by
  obtain ⟨hr', hfamily, hrevoked⟩ := hlive
  obtain ⟨r, hr, haged⟩ := h r' hr' hfamily
  refine ⟨r, ⟨hr, haged.family_eq.symm.trans hfamily, ?_⟩, haged⟩
  cases hr : r.revoked with
  | false => rfl
  | true => simp [haged.2 hr] at hrevoked

theorem mem_revokeId (id : Int) {t : Tokens} {r : Model} (hr : r ∈ t.rows) :
    (if r.id = id then r.revoke else r) ∈ (revokeId id t).rows :=
  Table.mem_update.mpr ⟨r, hr, by simp⟩

theorem of_mem_revokeId {t : Tokens} {id : Int} {r' : Model} (hr' : r' ∈ (revokeId id t).rows) :
    ∃ r ∈ t.rows, Aged r r' ∧ (r'.id = id → r'.revoked = true) := by
  obtain ⟨r, hr, rfl⟩ := Table.mem_update.mp hr'
  refine ⟨r, hr, ?_⟩
  by_cases hid : r.id = id
  · simp [hid, Aged.revoke]
  · simp [hid, Aged.refl]

theorem keeps_revokeId (id : Int) (t : Tokens) : Keeps t (revokeId id t) := by
  intro r hr
  refine ⟨_, mem_revokeId _ hr, ?_⟩
  split
  · exact .revoke r
  · exact .refl r

theorem noneIssued_revokeId (f : Uuid) (id : Int) (t : Tokens) :
    NoneIssued f t (revokeId id t) := by
  intro r' hr' _
  obtain ⟨r, hr, haged, _⟩ := of_mem_revokeId hr'
  exact ⟨r, hr, haged⟩

/-- A row still live after an update of one id is not the row of that id. -/
theorem live_of_revokeId {f : Uuid} {id : Int} {t : Tokens} {r : Model}
    (hlive : Live f (revokeId id t) r) : Live f t r ∧ r.id ≠ id := by
  obtain ⟨hr, hfamily, hrevoked⟩ := hlive
  obtain ⟨a, ha, rfl⟩ := Table.mem_update.mp hr
  by_cases hid : a.id = id
  · simp [hid] at hrevoked
  · simp only [hid, decide_false, Bool.false_eq_true, if_false] at hfamily hrevoked ⊢
    exact ⟨⟨ha, hfamily, hrevoked⟩, hid⟩

theorem keeps_insert {t t' : Tokens} {row : Model} (h : t.insert row = some t') : Keeps t t' :=
  fun r hr => ⟨r, (Table.mem_of_insert h).mpr (.inl hr), .refl r⟩

theorem noneIssued_insert {f : Uuid} {t t' : Tokens} {row : Model} (h : t.insert row = some t')
    (hfamily : row.family_id ≠ f) : NoneIssued f t t' := by
  intro r hr hf
  obtain hold | rfl := (Table.mem_of_insert h).mp hr
  · exact ⟨r, hold, .refl r⟩
  · exact absurd hf hfamily

end api2mcp.store
