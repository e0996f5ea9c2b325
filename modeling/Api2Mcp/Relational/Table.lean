import Api2Mcp.Collections.Pointwise
import Api2Mcp.Control.Except
import Mathlib.Data.List.Basic
import Mathlib.Data.List.Forall2
import Mathlib.Data.List.Pairwise
import Mathlib.Data.List.Sort

namespace relational

/-- The unique indexes of a table, as the pairs of rows that may not both
stand in it. -/
structure Indexes (ρ : Type) where
  clash : ρ → ρ → Bool
  symm : ∀ a b, clash a b = clash b a

/-- The index on one column that is never null. -/
def Indexes.on {ρ κ : Type} [DecidableEq κ] (key : ρ → κ) : Indexes ρ where
  clash a b := decide (key a = key b)
  symm a b := by simp [eq_comm]

/-- Either of two indexes. -/
def Indexes.or {ρ : Type} (u v : Indexes ρ) : Indexes ρ where
  clash a b := u.clash a b || v.clash a b
  symm a b := by rw [u.symm, v.symm]

/-- A table carries the proof that its unique indexes hold. -/
structure Table {ρ : Type} (u : Indexes ρ) where
  rows : List ρ
  unique : rows.Pairwise fun a b => u.clash a b = false

namespace Table

variable {ρ : Type} {u : Indexes ρ}

theorem ext_rows {t t' : Table u} (h : t.rows = t'.rows) : t = t' := by
  cases t
  cases t'
  cases h
  rfl

def empty : Table u := ⟨[], .nil⟩

/-- `SELECT … LIMIT 1`. -/
def find (t : Table u) (p : ρ → Bool) : Option ρ := t.rows.find? p

/-- `SELECT …`. -/
def select (t : Table u) (p : ρ → Bool) : List ρ := t.rows.filter p

/-- A table of one row. -/
def single (r : ρ) : Table u := ⟨[r], List.pairwise_singleton _ r⟩

/-- A table of at most one row. -/
def short (rows : List ρ) (h : rows.length ≤ 1) : Table u where
  rows
  unique := by
    obtain _ | ⟨r, _ | _⟩ := rows
    · exact .nil
    · exact List.pairwise_singleton _ r
    · simp at h

@[simp] theorem rows_single (r : ρ) : (single r : Table u).rows = [r] := rfl

/-- `UPDATE … SET …` of columns no unique index reads. -/
def update (t : Table u) (p : ρ → Bool) (set : ρ → ρ)
    (hset : ∀ a b, u.clash (set a) b = u.clash a b) : Table u where
  rows := t.rows.map fun r => if p r then set r else r
  unique := by
    refine List.pairwise_map.mpr (t.unique.imp fun {a b} hab => ?_)
    have hleft : ∀ x c, u.clash (if p x then set x else x) c = u.clash x c := by
      intro x c
      split
      · exact hset x c
      · rfl
    rw [hleft, u.symm, hleft, u.symm, hab]

/-- `UPDATE … SET …` of any columns; refused when a unique index would break. -/
def modify (t : Table u) (p : ρ → Bool) (set : ρ → ρ) : Option (Table u) :=
  if h : (t.rows.map fun r => if p r then set r else r).Pairwise fun a b => u.clash a b = false then
    some ⟨_, h⟩
  else none

/-- `INSERT`; refused when a unique index would break. -/
def insert (t : Table u) (r : ρ) : Option (Table u) :=
  if h : t.rows.all fun a => !u.clash a r then
    some ⟨t.rows ++ [r], by
      refine List.pairwise_append.mpr ⟨t.unique, by simp, fun a ha b hb => ?_⟩
      rw [List.mem_singleton.mp hb]
      simpa using List.all_eq_true.mp h a ha⟩
  else none

/-- `DELETE`. -/
def delete (t : Table u) (p : ρ → Bool) : Table u where
  rows := t.rows.filter fun r => !p r
  unique := t.unique.sublist List.filter_sublist

/-- Two rows of the table that a unique index cannot tell apart are one. -/
theorem eq_of_clash {t : Table u} {a b : ρ} (ha : a ∈ t.rows) (hb : b ∈ t.rows)
    (hclash : u.clash a b = true) : a = b := by
  by_contra hne
  have : Std.Symm fun x y : ρ => u.clash x y = false := ⟨fun x y hxy => by rw [u.symm, hxy]⟩
  have hfalse := t.unique.forall ha hb hne
  rw [hclash] at hfalse
  cases hfalse

theorem mem_of_find {t : Table u} {p : ρ → Bool} {r : ρ} (h : t.find p = some r) :
    r ∈ t.rows ∧ p r = true :=
  ⟨List.mem_of_find?_eq_some h, List.find?_some h⟩

theorem find_eq_none {t : Table u} {p : ρ → Bool} :
    t.find p = none ↔ ∀ r ∈ t.rows, p r = false := by
  simp [find, List.find?_eq_none]

/-- A row that a unique index identifies is the one a lookup by it finds. -/
theorem find_of_mem {t : Table u} {p : ρ → Bool} {r : ρ} (hr : r ∈ t.rows) (hp : p r = true)
    (huniq : ∀ a ∈ t.rows, p a = true → u.clash a r = true) : t.find p = some r := by
  cases hfind : t.find p with
  | none => simp [find_eq_none.mp hfind r hr] at hp
  | some a =>
    obtain ⟨ha, hpa⟩ := mem_of_find hfind
    rw [eq_of_clash ha hr (huniq a ha hpa)]

@[simp] theorem mem_select {t : Table u} {p : ρ → Bool} {r : ρ} :
    r ∈ t.select p ↔ r ∈ t.rows ∧ p r = true := List.mem_filter

@[simp] theorem mem_update {t : Table u} {p : ρ → Bool} {set : ρ → ρ}
    {hset : ∀ a b, u.clash (set a) b = u.clash a b} {r : ρ} :
    r ∈ (t.update p set hset).rows ↔ ∃ a ∈ t.rows, (if p a then set a else a) = r :=
  List.mem_map

@[simp] theorem mem_delete {t : Table u} {p : ρ → Bool} {r : ρ} :
    r ∈ (t.delete p).rows ↔ r ∈ t.rows ∧ p r = false := by
  simp [delete]

theorem rows_of_modify {t t' : Table u} {p : ρ → Bool} {set : ρ → ρ}
    (h : t.modify p set = some t') : t'.rows = t.rows.map fun r => if p r then set r else r := by
  unfold modify at h
  split at h
  · cases h
    rfl
  · cases h

/-- An update is refused for two rows that it would bring together. -/
theorem clash_of_modify {t : Table u} {p : ρ → Bool} {set : ρ → ρ} (h : t.modify p set = none) :
    ∃ a ∈ t.rows, ∃ b ∈ t.rows, u.clash a b = false ∧
      u.clash (if p a then set a else a) (if p b then set b else b) = true := by
  by_contra hnone
  have hpair : (t.rows.map fun r => if p r then set r else r).Pairwise fun a b => u.clash a b = false := by
    refine List.pairwise_map.mpr (t.unique.imp_of_mem fun {a b} ha hb hab => ?_)
    by_contra hclash
    exact hnone ⟨a, ha, b, hb, hab, by simpa using hclash⟩
  simp [modify, hpair] at h

/-- An insert is refused for a row that the new one would clash with. -/
theorem clash_of_insert {t : Table u} {r : ρ} (h : t.insert r = none) : ∃ a ∈ t.rows, u.clash a r = true := by
  unfold insert at h
  split at h
  · cases h
  · rename_i hall
    simpa using hall

theorem exists_insert {t : Table u} {r : ρ} (h : ∀ a ∈ t.rows, u.clash a r = false) :
    ∃ t', t.insert r = some t' := by
  refine Option.ne_none_iff_exists'.mp fun hnone => ?_
  obtain ⟨a, ha, hclash⟩ := clash_of_insert hnone
  rw [h a ha] at hclash
  cases hclash

theorem exists_modify {t : Table u} {p : ρ → Bool} {set : ρ → ρ}
    (h : ∀ a ∈ t.rows, ∀ b ∈ t.rows,
      u.clash (if p a then set a else a) (if p b then set b else b) = u.clash a b) :
    ∃ t', t.modify p set = some t' := by
  refine Option.ne_none_iff_exists'.mp fun hnone => ?_
  obtain ⟨a, ha, b, hb, hapart, hclash⟩ := clash_of_modify hnone
  rw [h a ha b hb, hapart] at hclash
  cases hclash

section

variable {ι κ : Type} [DecidableEq ι] [DecidableEq κ] {id : ρ → ι} {key : ρ → κ}

/-- A row of a new identifier and a new key is inserted. -/
theorem exists_insert_new {t : Table ((Indexes.on id).or (.on key))} {r : ρ}
    (hid : ∀ a ∈ t.rows, id a ≠ id r) (hkey : ∀ a ∈ t.rows, key a ≠ key r) : ∃ t', t.insert r = some t' := by
  refine exists_insert fun a ha => ?_
  simp [Indexes.or, Indexes.on, hid a ha, hkey a ha]

/-- A row is written over by one of the same identifier and the same key. -/
theorem exists_modify_same {t : Table ((Indexes.on id).or (.on key))} {r found : ρ} (hfound : found ∈ t.rows)
    (hid : id found = id r) (hkey : key found = key r) :
    ∃ t', (t.modify (fun a => id a = id r) fun _ => r) = some t' := by
  have hkept : ∀ a ∈ t.rows, id (if decide (id a = id r) then r else a) = id a ∧
      key (if decide (id a = id r) then r else a) = key a := by
    intro a ha
    by_cases hsame : id a = id r
    · have heq : a = found := eq_of_clash ha hfound (by simp [Indexes.or, Indexes.on, hsame, hid])
      rw [if_pos (decide_eq_true hsame)]
      exact ⟨hsame.symm, by rw [heq, hkey]⟩
    · rw [if_neg (by simpa using hsame)]
      exact ⟨rfl, rfl⟩
  refine exists_modify fun a ha b hb => ?_
  obtain ⟨hida, hkeya⟩ := hkept a ha
  obtain ⟨hidb, hkeyb⟩ := hkept b hb
  simp only [Indexes.or, Indexes.on, hida, hkeya, hidb, hkeyb]

end

/-- A select of rows that a delete leaves. -/
theorem select_delete {t : Table u} {p q : ρ → Bool} (h : ∀ r ∈ t.rows, p r = true → q r = false) :
    (t.delete q).select p = t.select p := by
  simp only [select, delete, List.filter_filter]
  refine List.filter_congr fun r hr => ?_
  cases hp : p r with
  | false => rfl
  | true => simp [h r hr hp]

/-- Two tables hold the same of the rows that matter. -/
theorem exists_congr {t t' : Table u} {P P' : ρ → Prop} (ok : ρ → Prop) (hP : ∀ r, P r → ok r) (hP' : ∀ r, P' r → ok r)
    (hrows : ∀ r, ok r → (r ∈ t'.rows ↔ r ∈ t.rows)) (hsame : ∀ r ∈ t.rows, ok r → (P' r ↔ P r)) :
    (∃ r ∈ t'.rows, P' r) ↔ ∃ r ∈ t.rows, P r := by
  constructor
  · rintro ⟨r, hr, hread⟩
    have hok := hP' r hread
    have hr := (hrows r hok).mp hr
    exact ⟨r, hr, (hsame r hr hok).mp hread⟩
  · rintro ⟨r, hr, hread⟩
    have hok := hP r hread
    exact ⟨r, (hrows r hok).mpr hr, (hsame r hr hok).mpr hread⟩

/-- What a select brings in order are rows that the indexes tell apart. -/
theorem pairwise_sorted (t : Table u) (p : ρ → Bool) (le : ρ → ρ → Prop) [DecidableRel le] :
    ((t.select p).insertionSort le).Pairwise fun a b => u.clash a b = false :=
  (List.perm_insertionSort _ _).symm.pairwise (t.unique.sublist List.filter_sublist) fun {a b} hab => by
    rwa [u.symm]

/-- The rows that only `r` is among. -/
theorem select_eq_singleton {t : Table u} {p : ρ → Bool} {r : ρ} (hr : r ∈ t.rows) (hp : p r = true)
    (hclash : u.clash r r = true) (honly : ∀ a ∈ t.rows, p a = true → a = r) : t.select p = [r] := by
  obtain ⟨rows, hunique⟩ := t
  simp only [select] at hr honly ⊢
  induction rows with
  | nil => cases hr
  | cons x rows ih =>
    obtain ⟨hx, hrest⟩ := List.pairwise_cons.mp hunique
    by_cases hpx : p x = true
    · obtain rfl := honly x List.mem_cons_self hpx
      have hnone : rows.filter p = [] := by
        refine List.filter_eq_nil_iff.mpr fun y hy hpy => ?_
        have hsame := honly y (List.mem_cons_of_mem x hy) hpy
        have hapart := hx y hy
        rw [hsame, hclash] at hapart
        cases hapart
      rw [List.filter_cons_of_pos hpx, hnone]
    · rw [List.filter_cons_of_neg hpx]
      have hmem : r ∈ rows := by
        obtain rfl | hmem := List.mem_cons.mp hr
        · exact absurd hp hpx
        · exact hmem
      exact ih hrest hmem fun a ha => honly a (List.mem_cons_of_mem x ha)

theorem rows_of_insert {t t' : Table u} {r : ρ} (h : t.insert r = some t') :
    t'.rows = t.rows ++ [r] := by
  unfold insert at h
  split at h
  · cases h
    rfl
  · cases h

/-- The row that was inserted shares no unique key with those that were there. -/
theorem not_clash_of_insert {t t' : Table u} {r a : ρ} (h : t.insert r = some t')
    (ha : a ∈ t.rows) : u.clash a r = false := by
  unfold insert at h
  split at h
  · rename_i hall
    simpa using List.all_eq_true.mp hall a ha
  · cases h

theorem mem_of_insert {t t' : Table u} {r a : ρ} (h : t.insert r = some t') :
    a ∈ t'.rows ↔ a ∈ t.rows ∨ a = r := by
  rw [rows_of_insert h]
  simp

/-- A check that every row passes. -/
def Each (P : ρ → Prop) (t : Table u) : Prop := ∀ r ∈ t.rows, P r

section

variable {P : ρ → Prop} {t t' : Table u}

theorem Each.of_subset (h : t.Each P) (hsub : ∀ r ∈ t'.rows, r ∈ t.rows) : t'.Each P := fun r hr => h r (hsub r hr)

theorem Each.delete (h : t.Each P) (p : ρ → Bool) : (t.delete p).Each P :=
  h.of_subset fun _ hr => (mem_delete.mp hr).1

theorem Each.insert {r : ρ} (h : t.Each P) (hinsert : t.insert r = some t') (hr : P r) : t'.Each P := by
  intro a ha
  obtain hold | rfl := (mem_of_insert hinsert).mp ha
  · exact h a hold
  · exact hr

theorem Each.modify {p : ρ → Bool} {set : ρ → ρ} (h : t.Each P) (hmodify : t.modify p set = some t')
    (hset : ∀ a, P (set a)) : t'.Each P := by
  intro a ha
  rw [rows_of_modify hmodify] at ha
  obtain ⟨b, hb, rfl⟩ := List.mem_map.mp ha
  split
  · exact hset b
  · exact h b hb

/-- Rows that pass the check are inserted in turn. -/
theorem Each.foldlM {ε κ : Type} {step : Table u → κ → Except ε (Table u)} {keys : List κ} (h : t.Each P)
    (hfold : keys.foldlM step t = .ok t')
    (hstep : ∀ k ∈ keys, ∀ t t', step t k = .ok t' → ∃ r, P r ∧ t.insert r = some t') : t'.Each P := by
  refine except.foldlM_inv (Each P) hfold h fun k hk before after hbefore hafter => ?_
  obtain ⟨r, hr, hinsert⟩ := hstep k hk before after hafter
  exact hbefore.insert hinsert hr

end

/-- The rows of `t`, with `r` in the place of the row of its key, which is the
row of its identifier. -/
structure Upserted {ι κ : Type} (id : ρ → ι) (key : ρ → κ) (t t' : Table u) (r : ρ) : Prop where
  mem : ∀ a, a ∈ t'.rows ↔ a = r ∨ (a ∈ t.rows ∧ key a ≠ key r)
  same : ∀ a ∈ t.rows, id a = id r ↔ key a = key r

theorem upserted_of_insert {ι κ : Type} {id : ρ → ι} {key : ρ → κ} {t t' : Table u} {r : ρ}
    (h : t.insert r = some t') (hid : ∀ a b, id a = id b → u.clash a b = true)
    (hkey : ∀ a b, key a = key b → u.clash a b = true) : Upserted id key t t' r := by
  have hfresh : ∀ a ∈ t.rows, id a ≠ id r ∧ key a ≠ key r := by
    intro a ha
    have hclash := not_clash_of_insert h ha
    exact ⟨fun heq => by simp [hid a r heq] at hclash, fun heq => by simp [hkey a r heq] at hclash⟩
  constructor
  · intro a
    rw [mem_of_insert h, or_comm]
    exact or_congr_right (iff_self_and.mpr fun ha => (hfresh a ha).2)
  · exact fun a ha => iff_of_false (hfresh a ha).1 (hfresh a ha).2

theorem upserted_of_modify {ι κ : Type} [DecidableEq ι] {id : ρ → ι} {key : ρ → κ} {t t' : Table u} {r : ρ}
    (h : (t.modify (fun a => id a = id r) fun _ => r) = some t')
    (hid : ∀ a b, id a = id b → u.clash a b = true) (hkey : ∀ a b, key a = key b → u.clash a b = true)
    {found : ρ} (hfound : found ∈ t.rows) (hfid : id found = id r) (hfkey : key found = key r) :
    Upserted id key t t' r := by
  have hsame : ∀ a ∈ t.rows, (id a = id r ↔ a = found) ∧ (key a = key r ↔ a = found) := by
    intro a ha
    refine ⟨⟨fun heq => ?_, fun heq => heq ▸ hfid⟩, fun heq => ?_, fun heq => heq ▸ hfkey⟩
    · exact eq_of_clash ha hfound (hid a found (heq.trans hfid.symm))
    · exact eq_of_clash ha hfound (hkey a found (heq.trans hfkey.symm))
  constructor
  · intro a
    rw [rows_of_modify h, List.mem_map]
    constructor
    · rintro ⟨b, hb, rfl⟩
      split
      · exact .inl rfl
      · rename_i hother
        rw [decide_eq_true_eq, (hsame b hb).1] at hother
        exact .inr ⟨hb, fun heq => hother ((hsame b hb).2.mp heq)⟩
    · rintro (rfl | ⟨ha, hother⟩)
      · exact ⟨found, hfound, if_pos (decide_eq_true hfid)⟩
      · refine ⟨a, ha, if_neg fun heq => hother ?_⟩
        exact (hsame a ha).2.mpr ((hsame a ha).1.mp (of_decide_eq_true heq))
  · exact fun a ha => (hsame a ha).1.trans (hsame a ha).2.symm

namespace Upserted

variable {ι κ : Type} {id : ρ → ι} {key : ρ → κ} {t t' : Table u} {r : ρ}

theorem mem_self (h : Upserted id key t t' r) : r ∈ t'.rows := (h.mem r).mpr (.inl rfl)

/-- A row of another key is a row of another identifier. -/
theorem id_ne (h : Upserted id key t t' r) {a : ρ} (ha : a ∈ t.rows) (hkey : key a ≠ key r) : id a ≠ id r :=
  fun heq => hkey ((h.same a ha).mp heq)

/-- An identifier that was there leads to the key it led to. -/
theorem exists_iff (h : Upserted id key t t' r) {i : ι} (hi : ∃ a ∈ t.rows, id a = i) {P : κ → Prop} :
    (∃ a ∈ t'.rows, id a = i ∧ P (key a)) ↔ ∃ a ∈ t.rows, id a = i ∧ P (key a) := by
  obtain ⟨b, hb, rfl⟩ := hi
  constructor
  · rintro ⟨a, ha, hid, hP⟩
    obtain rfl | ⟨ha, _⟩ := (h.mem a).mp ha
    · exact ⟨b, hb, rfl, ((h.same b hb).mp hid.symm).symm ▸ hP⟩
    · exact ⟨a, ha, hid, hP⟩
  · rintro ⟨a, ha, hid, hP⟩
    by_cases hkey : key a = key r
    · exact ⟨r, h.mem_self, ((h.same a ha).mpr hkey).symm.trans hid, hkey ▸ hP⟩
    · exact ⟨a, (h.mem a).mpr (.inr ⟨ha, hkey⟩), hid, hP⟩

/-- What the rows of the table hold, when the key of a row is part of what it
holds and the rows of other keys hold what they held. -/
theorem holds_iff (h : Upserted id key t t' r) {P Q : ρ → Prop} {R : Prop} {k : κ}
    (hown : Q r ↔ R) (hothers : ∀ a ∈ t.rows, id a ≠ id r → (Q a ↔ P a))
    (hkey : ∀ a, P a → key a = k) :
    (∃ a ∈ t'.rows, Q a) ↔ R ∨ ((∃ a ∈ t.rows, P a) ∧ k ≠ key r) := by
  constructor
  · rintro ⟨a, ha, hheld⟩
    obtain rfl | ⟨ha, hne⟩ := (h.mem a).mp ha
    · exact .inl (hown.mp hheld)
    · have hheld := (hothers a ha (h.id_ne ha hne)).mp hheld
      exact .inr ⟨⟨a, ha, hheld⟩, hkey a hheld ▸ hne⟩
  · rintro (hheld | ⟨⟨a, ha, hheld⟩, hne⟩)
    · exact ⟨r, h.mem_self, hown.mpr hheld⟩
    · have hne : key a ≠ key r := by rwa [hkey a hheld]
      exact ⟨a, (h.mem a).mpr (.inr ⟨ha, hne⟩), (hothers a ha (h.id_ne ha hne)).mpr hheld⟩

end Upserted

/-- Rows inserted in turn stand behind those that were there. -/
theorem rows_of_foldlM {ε κ : Type} {step : Table u → κ → Except ε (Table u)} (row : κ → ρ → Prop)
    (hstep : ∀ t k t', step t k = .ok t' → ∃ r, row k r ∧ t.insert r = some t') {keys : List κ}
    {t t' : Table u} (h : keys.foldlM step t = .ok t') :
    ∃ rs, List.Forall₂ row keys rs ∧ t'.rows = t.rows ++ rs := by
  induction keys generalizing t with
  | nil =>
    rw [List.foldlM_nil, except.pure_eq_ok] at h
    subst h
    exact ⟨[], .nil, (List.append_nil _).symm⟩
  | cons k keys ih =>
    rw [List.foldlM_cons, except.bind_eq_ok] at h
    obtain ⟨mid, hmid, hrest⟩ := h
    obtain ⟨r, hrow, hinsert⟩ := hstep t k mid hmid
    obtain ⟨rs, hrows, hrest⟩ := ih hrest
    refine ⟨r :: rs, .cons hrow hrows, ?_⟩
    rw [hrest, rows_of_insert hinsert, List.append_assoc]
    rfl

/-- Rows can be inserted in turn when no unique index would break. -/
theorem foldlM_ok_iff {ε κ : Type} {step : Table u → κ → Except ε (Table u)} {row : κ → ρ → Prop}
    (hstep : ∀ t k t', step t k = .ok t' ↔ ∃ r, row k r ∧ t.insert r = some t') {keys : List κ} {t : Table u} :
    (∃ t', keys.foldlM step t = .ok t') ↔
      ∃ rs, List.Forall₂ row keys rs ∧ (t.rows ++ rs).Pairwise fun a b => u.clash a b = false := by
  constructor
  · rintro ⟨t', ht'⟩
    obtain ⟨rs, hrs, hrows⟩ := rows_of_foldlM row (fun t k t' => (hstep t k t').mp) ht'
    exact ⟨rs, hrs, hrows ▸ t'.unique⟩
  · rintro ⟨rs, hrs, hunique⟩
    induction hrs generalizing t with
    | nil => exact ⟨t, rfl⟩
    | @cons k r keys rs hrow hrest ih =>
      obtain ⟨mid, hmid⟩ := exists_insert fun a ha =>
        (List.pairwise_append.mp hunique).2.2 a ha r List.mem_cons_self
      obtain ⟨t', ht'⟩ := @ih mid (by rwa [rows_of_insert hmid, List.append_assoc])
      refine ⟨t', ?_⟩
      rw [List.foldlM_cons, (hstep t k mid).mpr ⟨r, hrow, hmid⟩]
      exact ht'

/-- The rows of a key can be replaced when each of the new ones can be made and
no unique index tells two of them alike. -/
theorem replaced_ok_iff {ε κ ι : Type} [DecidableEq ι] {step : Table u → κ → Except ε (Table u)}
    {row : κ → ρ → Prop} {key : ρ → ι} {id : ι} {apart : κ → κ → Prop}
    (hstep : ∀ t k t', step t k = .ok t' ↔ ∃ r, row k r ∧ t.insert r = some t')
    (hrow : ∀ k r, row k r → key r = id) (hkey : ∀ a b, u.clash a b = true → key a = key b)
    (hapart : ∀ k r k' r', row k r → row k' r' → (u.clash r r' = false ↔ apart k k')) {keys : List κ}
    {t : Table u} :
    (∃ t', keys.foldlM step (t.delete fun r => key r = id) = .ok t') ↔
      (∀ k ∈ keys, ∃ r, row k r) ∧ keys.Pairwise apart := by
  rw [foldlM_ok_iff hstep]
  constructor
  · rintro ⟨rs, hrs, hunique⟩
    refine ⟨pointwise.exists_iff.mp ⟨rs, hrs⟩, ?_⟩
    refine pointwise.pairwise hrs.flip (fun r k r' k' hr hr' => (hapart k r k' r' hr hr').mp) ?_
    exact (List.pairwise_append.mp hunique).2.1
  · rintro ⟨hmade, hkeys⟩
    obtain ⟨rs, hrs⟩ := pointwise.exists_iff.mpr hmade
    refine ⟨rs, hrs, List.pairwise_append.mpr ⟨(t.delete _).unique, ?_, fun a ha r hr => ?_⟩⟩
    · exact pointwise.pairwise hrs (fun k r k' r' hr hr' => (hapart k r k' r' hr hr').mpr) hkeys
    · obtain ⟨_, hother⟩ := mem_delete.mp ha
      obtain ⟨k, _, hk⟩ := pointwise.exists_left hrs hr
      rw [← Bool.not_eq_true]
      intro hclash
      have hsame : key a = id := (hkey a r hclash).trans (hrow k r hk)
      rw [decide_eq_true hsame] at hother
      cases hother

/-- The rows of one key are replaced, and those of no other. -/
theorem select_of_replaced {κ : Type} [DecidableEq κ] {key : ρ → κ} {id : κ} {t t' : Table u} {rs : List ρ}
    (h : t'.rows = (t.delete fun r => key r = id).rows ++ rs) (hrs : ∀ r ∈ rs, key r = id) :
    (t'.select fun r => key r = id) = rs ∧
      ∀ other, other ≠ id → (t'.select fun r => key r = other) = t.select fun r => key r = other := by
  constructor
  · rw [select, h, List.filter_append, List.filter_eq_self.mpr fun r hr => decide_eq_true (hrs r hr)]
    simp [delete]
  · intro other hne
    rw [select, h, List.filter_append]
    have hnone : rs.filter (fun r => decide (key r = other)) = [] :=
      List.filter_eq_nil_iff.mpr fun r hr => by simp [hrs r hr, Ne.symm hne]
    rw [hnone, List.append_nil, select, delete, List.filter_filter]
    congr 1
    funext r
    by_cases hkey : key r = other <;> simp [hkey, hne]

/-- Rows inserted in turn, one for each key, join those that were there. -/
theorem mem_of_foldlM {ε κ : Type} {step : Table u → κ → Except ε (Table u)} (row : κ → ρ → Prop)
    (hstep : ∀ t k t', step t k = .ok t' → ∃ r, row k r ∧ t.insert r = some t') {keys : List κ}
    {t t' : Table u} (h : keys.foldlM step t = .ok t') :
    (∀ r ∈ t'.rows, r ∈ t.rows ∨ ∃ k ∈ keys, row k r) ∧ (∀ r ∈ t.rows, r ∈ t'.rows) ∧
      ∀ k ∈ keys, ∃ r ∈ t'.rows, row k r := by
  induction keys generalizing t with
  | nil =>
    rw [List.foldlM_nil, except.pure_eq_ok] at h
    subst h
    exact ⟨fun r hr => .inl hr, fun r hr => hr, by simp⟩
  | cons k keys ih =>
    rw [List.foldlM_cons, except.bind_eq_ok] at h
    obtain ⟨mid, hmid, hrest⟩ := h
    obtain ⟨r, hrow, hinsert⟩ := hstep t k mid hmid
    obtain ⟨hfrom, hkept, hall⟩ := ih hrest
    refine ⟨fun a ha => ?_, fun a ha => hkept a ((mem_of_insert hinsert).mpr (.inl ha)), ?_⟩
    · obtain hold | ⟨k', hk', hrow'⟩ := hfrom a ha
      · obtain hold | rfl := (mem_of_insert hinsert).mp hold
        · exact .inl hold
        · exact .inr ⟨k, List.mem_cons_self .., hrow⟩
      · exact .inr ⟨k', List.mem_cons_of_mem k hk', hrow'⟩
    · intro k' hk'
      obtain rfl | hk' := List.mem_cons.mp hk'
      · exact ⟨r, hkept r ((mem_of_insert hinsert).mpr (.inr rfl)), hrow⟩
      · exact hall k' hk'

end Table

end relational
