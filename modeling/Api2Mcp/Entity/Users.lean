import Api2Mcp.Store.Basic

namespace api2mcp.entity.users

open relational

/-- `ck_users_oidc_pair`: the two columns of an identity are set together or
not at all. -/
structure Model where
  id : Uuid
  email : String
  password_hash : Option String
  oidc_issuer : Option String
  oidc_subject : Option String
  created_at : DateTime
  ck_users_oidc_pair : oidc_issuer.isNone = oidc_subject.isNone
  deriving DecidableEq

/-- The index is partial: rows without an identity never clash. -/
def sameIdentity (a b : Model) : Bool :=
  a.oidc_issuer.isSome && a.oidc_subject.isSome && decide (a.oidc_issuer = b.oidc_issuer) &&
    decide (a.oidc_subject = b.oidc_subject)

theorem sameIdentity_comm (a b : Model) : sameIdentity a b = sameIdentity b a := by
  rw [Bool.eq_iff_iff]
  simp only [sameIdentity, Bool.and_eq_true, decide_eq_true_eq]
  constructor
  · rintro ⟨⟨⟨hissuer, hsubject⟩, hi⟩, hs⟩
    exact ⟨⟨⟨hi ▸ hissuer, hs ▸ hsubject⟩, hi.symm⟩, hs.symm⟩
  · rintro ⟨⟨⟨hissuer, hsubject⟩, hi⟩, hs⟩
    exact ⟨⟨⟨hi ▸ hissuer, hs ▸ hsubject⟩, hi.symm⟩, hs.symm⟩

/-- The primary key, `ux_users_email` and `ux_users_oidc_identity`. -/
def indexes : Indexes Model where
  clash a b := decide (a.id = b.id) || decide (a.email = b.email) || sameIdentity a b
  symm a b := by
    rw [sameIdentity_comm, decide_eq_decide.mpr (eq_comm (a := a.id)),
      decide_eq_decide.mpr (eq_comm (a := a.email))]

/-- The row with another address. -/
def Model.set_email (email : String) (r : Model) : Model := { r with email }

/-- The row with an identity, and an address. -/
def Model.link (issuer subject email : String) (r : Model) : Model where
  id := r.id
  email
  password_hash := r.password_hash
  oidc_issuer := some issuer
  oidc_subject := some subject
  created_at := r.created_at
  ck_users_oidc_pair := rfl

/-- The row with another password. -/
def Model.set_password_hash (hash : String) (r : Model) : Model := { r with password_hash := some hash }

@[simp] theorem Model.set_email_id (email : String) (r : Model) : (r.set_email email).id = r.id := rfl

@[simp] theorem Model.link_id (issuer subject email : String) (r : Model) :
    (r.link issuer subject email).id = r.id := rfl

theorem eq_of_id {t : Table indexes} {a b : Model} (ha : a ∈ t.rows) (hb : b ∈ t.rows)
    (hid : a.id = b.id) : a = b :=
  Table.eq_of_clash ha hb (by simp [indexes, hid])

end api2mcp.entity.users
