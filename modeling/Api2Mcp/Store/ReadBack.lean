import Api2Mcp.Numeric.Word
import Api2Mcp.Store.Catalog
import Api2Mcp.Store.Decisions

namespace api2mcp.store

open relational btree concurrent except
open api2mcp.model api2mcp.entity

/-- What a store method makes of the rows when nothing comes in between its
reads and its transaction. -/
def Performs (q : Fetch Write) (rows rows' : Rows) : Prop :=
  ∃ write, Query.Yields (· = rows) q write ∧ write.apply rows = .ok rows'

namespace Definition

/-- The store method that creates a definition, with the keys it draws. -/
def create (tag_id : Tag → Uuid) (id : Uuid) : Definition → Fetch Write
  | service s => store.service.create s id
  | api_call t => store.api_call.create tag_id t.api_call t.tags id
  | script t => store.script.create tag_id t.script t.tags id
  | endpoint e => store.endpoint.create e id

/-- The store method that updates a definition. -/
def update (tag_id : Tag → Uuid) : Definition → Fetch Write
  | service s => store.service.update s
  | api_call t => store.api_call.update tag_id t.api_call t.tags
  | script t => store.script.update tag_id t.script t.tags
  | endpoint e => store.endpoint.update e

/-- What a reader of one kind reads, as a definition. -/
def read_as {α : Type} (kind : α → Definition) (q : Fetch (Option α)) : Fetch (Option Definition) := do
  let found ← q
  return found.map kind

/-- The store method that reads the definition of that name. -/
def get : Definition → Fetch (Option Definition)
  | service s => read_as service (store.service.get_by_slug s.owner_id s.slug)
  | api_call t => read_as api_call (store.api_call.get t.api_call.owner_id t.api_call.service_slug t.api_call.slug)
  | script t => read_as script (store.script.get t.script.owner_id t.script.slug)
  | endpoint e => read_as endpoint (store.endpoint.get e.owner_id e.slug)

end Definition

variable {rows rows' : Rows} {tag_id : Tag → Uuid}

namespace service

theorem upserted_of_create {s : Service} {id : Uuid} (h : Performs (create s id) rows rows') :
    Table.Upserted (·.id) row_key rows.services rows'.services (to_active_model s id) ∧
      rows' = { rows with services := rows'.services } := by
  obtain ⟨write, hwrite, happly⟩ := h
  rw [create_yields hwrite] at happly
  refine ⟨?_, insert_footprint happly⟩
  simp only [Write.apply, insert, bind_eq_ok, db_err_eq_ok, pure_eq_ok] at happly
  obtain ⟨table, hinsert, rfl⟩ := happly
  exact Table.upserted_of_insert hinsert (fun _ _ => clash_of_id) fun _ _ => clash_of_key

theorem upserted_of_update {s : Service} (h : Performs (update s) rows rows') :
    ∃ id, Table.Upserted (·.id) row_key rows.services rows'.services (to_active_model s id) ∧
      rows' = { rows with services := rows'.services } := by
  obtain ⟨write, hwrite, happly⟩ := h
  simp only [update, Query.yields_bind, yields_id_by_slug, Query.yields_pure] at hwrite
  obtain ⟨id, ⟨row, hrow, howner, hslug, hid⟩, rfl⟩ := hwrite
  refine ⟨id, ?_, set_footprint happly⟩
  simp only [Write.apply, set, bind_eq_ok, db_err_eq_ok, pure_eq_ok] at happly
  obtain ⟨_, _, table, hmodify, rfl⟩ := happly
  exact Table.upserted_of_modify hmodify (fun _ _ => clash_of_id) (fun _ _ => clash_of_key) hrow hid
    (Prod.ext howner hslug)

theorem upserts_of_create {s : Service} {id : Uuid} (hintact : Intact rows)
    (h : Performs (create s id) rows rows') : Upserts rows rows' (.service s) := by
  obtain ⟨hupserted, hrows⟩ := upserted_of_create h
  rw [hrows]
  exact upserts hintact hupserted

theorem upserts_of_update {s : Service} (hintact : Intact rows) (h : Performs (update s) rows rows') :
    Upserts rows rows' (.service s) := by
  obtain ⟨id, hupserted, hrows⟩ := upserted_of_update h
  rw [hrows]
  exact upserts hintact hupserted

end service

namespace api_call

theorem yields_id_by_slug {owner_id : Uuid} {service_slug slug : Slug} {id : Uuid} :
    Query.Yields (· = rows) (id_by_slug owner_id service_slug slug) id ↔
      ∃ s ∈ rows.services.rows, s.owner_id = owner_id ∧ s.slug = service_slug ∧
        ∃ row ∈ rows.api_calls.rows, row.owner_id = owner_id ∧ row.service_id = s.id ∧ row.slug = slug ∧
          row.id = id := by
  simp only [id_by_slug, Query.yields_bind, service.yields_id_by_slug, yields_select, exists_eq_left',
    yields_ok_or, Option.map_eq_some_iff, find_on_service]
  constructor
  · rintro ⟨_, ⟨s, hs, howner, hslug, rfl⟩, row, ⟨hrow, hrowner, hrservice, hrslug⟩, rfl⟩
    exact ⟨s, hs, howner, hslug, row, hrow, hrowner, hrservice, hrslug, rfl⟩
  · rintro ⟨s, hs, howner, hslug, row, hrow, hrowner, hrservice, hrslug, rfl⟩
    exact ⟨s.id, ⟨s, hs, howner, hslug, rfl⟩, row, ⟨hrow, hrowner, hrservice, hrslug⟩, rfl⟩

/-- The row of a call was written under a key, its params and its tags were replaced. -/
structure Written (tag_id : Tag → Uuid) (call : ApiCall) (tags : BTreeSet Tag) (id : Uuid) (rows rows' mid : Rows)
    (service_id : Uuid) : Prop where
  service : ∃ s ∈ rows.services.rows, s.id = service_id ∧ s.owner_id = call.owner_id ∧ s.slug = call.service_slug
  method : ck_method call.method = true
  upserted : Table.Upserted (·.id) row_key rows.api_calls rows'.api_calls (to_active_model call id service_id)
  intact : Intact { rows with api_calls := rows'.api_calls }
  params : replace_params id call.params { rows with api_calls := rows'.api_calls } = .ok mid
  tags : tag.set_api_call_tags tag_id id tags mid = .ok rows'

/-- The table of the calls is not written again. -/
theorem api_calls_of_parts {id : Uuid} {params : List Param} {tags : BTreeSet Tag} {table : Table api_calls.indexes}
    {mid : Rows} (hparams : replace_params id params { rows with api_calls := table } = .ok mid)
    (htags : tag.set_api_call_tags tag_id id tags mid = .ok rows') : table = rows'.api_calls := by
  have hfoot := tag.set_api_call_tags_footprint htags
  rw [replace_params_footprint hparams] at hfoot
  rw [hfoot]

theorem written_of_create {call : ApiCall} {tags : BTreeSet Tag} {id : Uuid} (hintact : Intact rows)
    (h : Performs (create tag_id call tags id) rows rows') :
    ∃ mid service_id, Written tag_id call tags id rows rows' mid service_id := by
  obtain ⟨write, hwrite, happly⟩ := h
  rw [create, Query.yields_bind] at hwrite
  obtain ⟨_, _, hwrite⟩ := hwrite
  obtain ⟨_, hwrite⟩ := yields_unless hwrite
  simp only [Query.yields_bind, service.yields_id_by_slug, Query.yields_pure] at hwrite
  obtain ⟨service_id, ⟨s, hs, howner, hslug, hid⟩, rfl⟩ := hwrite
  simp only [Write.apply, insert, bind_eq_ok, db_err_eq_ok] at happly
  obtain ⟨_, _, _, hmethod, table, hinsert, mid, hparams, htags⟩ := happly
  obtain rfl := api_calls_of_parts hparams htags
  refine ⟨mid, service_id, ⟨s, hs, hid, howner, hslug⟩, require_eq_ok.mp hmethod, ?_, ?_, hparams, htags⟩
  · exact Table.upserted_of_insert hinsert (fun _ _ => clash_of_id) fun _ _ => clash_of_key
  · exact { hintact with
      api_calls := hintact.api_calls.insert hinsert ⟨s, hs, hid⟩
      script_api_calls := hintact.script_api_calls.of_grow fun r hr => (Table.mem_of_insert hinsert).mpr (.inl hr) }

theorem written_of_update {call : ApiCall} {tags : BTreeSet Tag} (hintact : Intact rows)
    (h : Performs (update tag_id call tags) rows rows') :
    ∃ id mid service_id, Written tag_id call tags id rows rows' mid service_id := by
  obtain ⟨write, hwrite, happly⟩ := h
  simp only [update, Query.yields_bind, yields_id_by_slug, service.yields_id_by_slug,
    Query.yields_pure] at hwrite
  obtain ⟨id, ⟨_, _, _, _, row, hrow, hrowner, _, hrslug, hrid⟩, service_id, ⟨s, hs, howner, hslug, hid⟩, rfl⟩ :=
    hwrite
  simp only [Write.apply, set, bind_eq_ok, db_err_eq_ok] at happly
  obtain ⟨_, _, _, _, _, hmethod, table, hmodify, mid, hparams, htags⟩ := happly
  obtain rfl := api_calls_of_parts hparams htags
  have hkey : row_key row = row_key (to_active_model call id service_id) := Prod.ext hrowner hrslug
  refine ⟨id, mid, service_id, ⟨s, hs, hid, howner, hslug⟩, require_eq_ok.mp hmethod, ?_, ?_, hparams, htags⟩
  · exact Table.upserted_of_modify hmodify (fun _ _ => clash_of_id) (fun _ _ => clash_of_key) hrow hrid hkey
  · exact { hintact with
      api_calls := hintact.api_calls.modify hmodify fun _ _ => ⟨s, hs, hid⟩
      script_api_calls := hintact.script_api_calls.of_modify hmodify fun r hr => (of_decide_eq_true hr).symm }

namespace Written

variable {call : ApiCall} {tags : BTreeSet Tag} {id service_id : Uuid} {mid : Rows}

theorem kept (h : Written tag_id call tags id rows rows' mid service_id) :
    rows'.services = rows.services ∧ rows'.auth_providers = rows.auth_providers := by
  have hfoot := tag.set_api_call_tags_footprint h.tags
  rw [replace_params_footprint h.params] at hfoot
  rw [hfoot]
  exact ⟨rfl, rfl⟩

theorem upserts (h : Written tag_id call tags id rows rows' mid service_id) (hintact : Intact rows)
    (hsorted : tags.Sorted) : Upserts rows rows' (.api_call ⟨call, tags⟩) := by
  obtain ⟨s, hs, hid, _, hslug⟩ := h.service
  exact store.api_call.upserts hintact h.intact hsorted ⟨s, hs, hid, hslug⟩ h.upserted h.params h.tags

/-- The call is found on the service it names. -/
theorem get (h : Written tag_id call tags id rows rows' mid service_id) (hsorted : tags.Sorted) :
    Query.Yields (· = rows') (get call.owner_id call.service_slug call.slug) (some ⟨stored call, tags⟩) :=
  get_of_upserted h.intact hsorted h.service h.upserted h.params h.tags

end Written

end api_call

namespace script

theorem upserts_of_create {script : ScriptDef} {tags : BTreeSet Tag} {id : Uuid} (hintact : Intact rows)
    (hsorted : tags.Sorted) (hcsorted : script.callable.Sorted)
    (h : Performs (create tag_id script tags id) rows rows') : Upserts rows rows' (.script ⟨script, tags⟩) := by
  obtain ⟨write, hwrite, happly⟩ := h
  rw [create_yields hwrite] at happly
  simp only [Write.apply, insert, bind_eq_ok, db_err_eq_ok] at happly
  obtain ⟨table, hinsert, first, hparams, second, hcallable, htags⟩ := happly
  exact upserts hintact hsorted hcsorted
    (Table.upserted_of_insert hinsert (fun _ _ => clash_of_id) fun _ _ => clash_of_key) hparams hcallable htags

theorem upserts_of_update {script : ScriptDef} {tags : BTreeSet Tag} (hintact : Intact rows)
    (hsorted : tags.Sorted) (hcsorted : script.callable.Sorted)
    (h : Performs (update tag_id script tags) rows rows') : Upserts rows rows' (.script ⟨script, tags⟩) := by
  obtain ⟨write, hwrite, happly⟩ := h
  simp only [update, Query.yields_bind, yields_id_by_slug, Query.yields_pure] at hwrite
  obtain ⟨id, ⟨row, hrow, howner, hslug, hid⟩, rfl⟩ := hwrite
  simp only [Write.apply, set, bind_eq_ok, db_err_eq_ok] at happly
  obtain ⟨_, _, table, hmodify, first, hparams, second, hcallable, htags⟩ := happly
  exact upserts hintact hsorted hcsorted
    (Table.upserted_of_modify hmodify (fun _ _ => clash_of_id) (fun _ _ => clash_of_key) hrow hid
      (Prod.ext howner hslug)) hparams hcallable htags

end script

namespace endpoint

theorem upserts_of_create {e : EndpointDef} {id : Uuid} (hasorted : e.aliases.Sorted)
    (hpsorted : e.auth_providers.Sorted) (h : Performs (create e id) rows rows') :
    Upserts rows rows' (.endpoint e) := by
  obtain ⟨write, hwrite, happly⟩ := h
  rw [create_yields hwrite] at happly
  simp only [Write.apply, insert, bind_eq_ok, db_err_eq_ok] at happly
  obtain ⟨table, hinsert, mid, haliases, hscope⟩ := happly
  exact upserts hasorted hpsorted
    (Table.upserted_of_insert hinsert (fun _ _ => clash_of_id) fun _ _ => clash_of_key) haliases hscope

theorem upserts_of_update {e : EndpointDef} (hasorted : e.aliases.Sorted) (hpsorted : e.auth_providers.Sorted)
    (h : Performs (update e) rows rows') : Upserts rows rows' (.endpoint e) := by
  obtain ⟨write, hwrite, happly⟩ := h
  simp only [update, Query.yields_bind, yields_id_by_slug, Query.yields_pure] at hwrite
  obtain ⟨id, ⟨row, hrow, howner, hslug, hid⟩, rfl⟩ := hwrite
  simp only [Write.apply, set, bind_eq_ok, db_err_eq_ok] at happly
  obtain ⟨_, _, table, hmodify, mid, haliases, hscope⟩ := happly
  exact upserts hasorted hpsorted
    (Table.upserted_of_modify hmodify (fun _ _ => clash_of_id) (fun _ _ => clash_of_key) hrow hid
      (Prod.ext howner hslug)) haliases hscope

end endpoint

namespace Definition

theorem upserts_of_create {d : Definition} {id : Uuid} (hintact : Intact rows) (hwf : d.Wf)
    (h : Performs (d.create tag_id id) rows rows') : Upserts rows rows' d := by
  cases d with
  | service s => exact store.service.upserts_of_create hintact h
  | api_call t =>
    obtain ⟨_, _, hwritten⟩ := store.api_call.written_of_create hintact h
    exact hwritten.upserts hintact hwf
  | script t => exact store.script.upserts_of_create hintact hwf.1 hwf.2 h
  | endpoint e => exact store.endpoint.upserts_of_create hwf.1 hwf.2 h

theorem upserts_of_update {d : Definition} (hintact : Intact rows) (hwf : d.Wf)
    (h : Performs (d.update tag_id) rows rows') : Upserts rows rows' d := by
  cases d with
  | service s => exact store.service.upserts_of_update hintact h
  | api_call t =>
    obtain ⟨_, _, _, hwritten⟩ := store.api_call.written_of_update hintact h
    exact hwritten.upserts hintact hwf
  | script t => exact store.script.upserts_of_update hintact hwf.1 hwf.2 h
  | endpoint e => exact store.endpoint.upserts_of_update hwf.1 hwf.2 h

end Definition

/-! Which definitions are read back as they were written. -/

/-- Only the lower half of a word comes back from the signed column. -/
theorem as_i32_toNat {v : Nat} : (as_i32 v).toNat = v ↔ v < 2 ^ 31 := by
  rw [as_i32, BitVec.toInt_eq_toNat_cond, BitVec.toNat_ofNat]
  split <;> omega

theorem as_i64_toNat {v : Nat} : (as_i64 v).toNat = v ↔ v < 2 ^ 63 := by
  rw [as_i64, BitVec.toInt_eq_toNat_cond, BitVec.toNat_ofNat]
  split <;> omega

theorem description_of_eq {o : Option String} : api_call.description_of (o.getD "") = o ↔ o ≠ some "" := by
  unfold api_call.description_of
  cases o with
  | none => simp
  | some text => by_cases htext : text = "" <;> simp [htext]

theorem map_eq_self {α : Type} {f : α → α} {o : Option α} : o.map f = o ↔ ∀ v, o = some v → f v = v := by
  cases o <;> simp

/-- The limits that a script's columns hold. -/
def FitsColumns (b : Budgets) : Prop :=
  (∀ v, b.max_calls = some v → v < 2 ^ 31) ∧ (∀ v, b.max_bytes = some v → v < 2 ^ 63) ∧
    (∀ d, b.wall_clock = some d → d % 1000 = 0 ∧ d / 1000 < 2 ^ 31) ∧
    (∀ v, b.max_pages = some v → v < 2 ^ 31) ∧ ∀ v, b.max_concurrency = some v → v < 2 ^ 31

namespace Definition

/-- The definitions that every column holds. -/
def Kept : Definition → Prop
  | service s => ∀ v, s.rate_limit_per_min = some v → 0 < v ∧ v < 2 ^ 31
  | api_call t =>
    (t.api_call.params.Pairwise fun a b => a.position ≤ b.position) ∧
      (∀ p ∈ t.api_call.params, p.description ≠ some "") ∧ t.api_call.description ≠ some ""
  | script t =>
    (t.script.params.Pairwise fun a b => a.position ≤ b.position) ∧
      (∀ p ∈ t.script.params, p.location = .Local ∧ p.fixed = none ∧ p.description ≠ some "") ∧
      FitsColumns t.script.budgets
  | endpoint e => ∀ d, e.budgets.wall_clock = some d → d % 1000 = 0

end Definition

/-- Sorting and reading each item gives the list back when it is sorted and each
item is read as it is. -/
theorem sort_map_eq_self {f : Param → Param} (hf : ∀ p, (f p).position = p.position) (ps : List Param) :
    ((ps.map f).insertionSort fun a b => a.position ≤ b.position) = ps ↔
      (ps.Pairwise fun a b => a.position ≤ b.position) ∧ ∀ p ∈ ps, f p = p := by
  have htotal : Std.Total fun a b : Param => a.position ≤ b.position := ⟨fun a b => le_total _ _⟩
  have htrans : IsTrans Param fun a b => a.position ≤ b.position := ⟨fun _ _ _ => le_trans⟩
  have hsort : (ps.Pairwise fun a b => a.position ≤ b.position) →
      ((ps.map f).insertionSort fun a b => a.position ≤ b.position) = ps.map f := by
    intro hsorted
    refine List.Pairwise.insertionSort_eq (List.pairwise_map.mpr (hsorted.imp fun {a b} hab => ?_))
    rwa [hf, hf]
  constructor
  · intro heq
    have hsorted : ps.Pairwise fun a b => a.position ≤ b.position := by
      rw [← heq]
      exact List.pairwise_insertionSort _ _
    rw [hsort hsorted] at heq
    exact ⟨hsorted, List.map_inj_left.mp (heq.trans (List.map_id ps).symm)⟩
  · rintro ⟨hsorted, hread⟩
    rw [hsort hsorted]
    exact (List.map_congr_left hread).trans (List.map_id ps)

/-- A limit of zero, or above what the column holds, is no limit. -/
theorem service.stored_eq {s : Service} :
    service.stored s = s ↔ ∀ v, s.rate_limit_per_min = some v → 0 < v ∧ v < 2 ^ 31 := by
  have hstored : service.stored s = { s with
      rate_limit_per_min := if as_i32 (s.rate_limit_per_min.getD 0) ≤ 0 then none
        else some (as_i32 (s.rate_limit_per_min.getD 0)).toNat } := rfl
  rw [hstored]
  obtain ⟨_, _, _, _, _, _, _, limit, _⟩ := s
  simp only [Service.mk.injEq, true_and, and_true]
  cases limit with
  | none => simp [as_i32]
  | some v =>
    have hread := as_i32_toNat (v := v)
    simp only [Option.getD_some, Option.some.injEq, forall_eq']
    by_cases hle : as_i32 v ≤ 0
    · rw [if_pos hle]
      refine iff_of_false nofun fun hfits => ?_
      omega
    · rw [if_neg hle, Option.some.injEq, hread]
      omega

theorem api_call.param_stored_eq {p : Param} : api_call.param_stored p = p ↔ p.description ≠ some "" := by
  rw [← description_of_eq]
  obtain ⟨_, _, _, _, _, _, _, _, _⟩ := p
  simp [api_call.param_stored]

theorem script.param_stored_eq {p : Param} : script.param_stored p = p ↔
    p.location = .Local ∧ p.fixed = none ∧ p.description ≠ some "" := by
  rw [← description_of_eq]
  obtain ⟨_, _, _, _, _, _, _, _, _⟩ := p
  simp [script.param_stored, eq_comm]

theorem script.budgets_stored_eq {s : ScriptDef} :
    (script.to_model (script.to_active_model s 0) [] []).budgets = s.budgets ↔ FitsColumns s.budgets := by
  have hclock : ∀ d : Nat, ((min (d / 1000) (2 ^ 31 - 1) : Nat) : Int).toNat * 1000 = d ↔
      d % 1000 = 0 ∧ d / 1000 < 2 ^ 31 := by
    intro d
    omega
  obtain ⟨_, _, _, _, _, ⟨_, _, _, _, _⟩, _⟩ := s
  simp only [script.to_model, script.to_active_model, Budgets.mk.injEq, Option.map_map, map_eq_self,
    Function.comp_def, as_i32_toNat, as_i64_toNat, hclock, FitsColumns]

theorem endpoint.budgets_stored_eq {b : Budgets} : endpoint.json_to_budgets (endpoint.budgets_to_json b) = b ↔
    ∀ d, b.wall_clock = some d → d % 1000 = 0 := by
  have hclock : ∀ d : Nat, d / 1000 * 1000 = d ↔ d % 1000 = 0 := by
    intro d
    omega
  obtain ⟨_, _, _, _, _⟩ := b
  simp only [endpoint.json_to_budgets, endpoint.budgets_to_json, Budgets.mk.injEq, Option.map_map, map_eq_self,
    Function.comp_def, hclock, true_and, and_true]

/-- The definitions that are read back as they were written. -/
theorem Definition.stored_eq_iff {d : Definition} : d.stored = d ↔ d.Kept := by
  cases d with
  | service s => rw [stored, service.injEq, store.service.stored_eq, Kept]
  | api_call t =>
    have hparams := sort_map_eq_self (f := store.api_call.param_stored) (fun _ => rfl) t.api_call.params
    have hdescription := description_of_eq (o := t.api_call.description)
    obtain ⟨⟨_, _, _, _, _, _, _, _, _, _, _, _, _, _, _⟩, _⟩ := t
    simp only [stored, store.api_call.stored, api_call.injEq, api_call.TaggedApiCall.mk.injEq, ApiCall.mk.injEq,
      true_and, and_true, hparams, hdescription, Kept, store.api_call.param_stored_eq, and_assoc]
  | script t =>
    have hparams := sort_map_eq_self (f := store.script.param_stored) (fun _ => rfl) t.script.params
    have hbudgets := script.budgets_stored_eq (s := t.script)
    obtain ⟨⟨_, _, _, _, _, _, _⟩, _⟩ := t
    simp only [stored, store.script.stored, script.injEq, script.TaggedScript.mk.injEq, ScriptDef.mk.injEq,
      true_and, and_true, hparams, hbudgets, Kept, store.script.param_stored_eq, and_assoc]
  | endpoint e =>
    have hbudgets := endpoint.budgets_stored_eq (b := e.budgets)
    obtain ⟨_, _, _, _, _, _, _, _, _⟩ := e
    simp only [stored, store.endpoint.stored, endpoint.injEq, EndpointDef.mk.injEq, true_and, and_true, hbudgets,
      Kept]

namespace Definition

theorem yields_read_as {α : Type} {kind : α → Definition} {q : Fetch (Option α)} {found : Option Definition} :
    Query.Yields (· = rows) (read_as kind q) found ↔
      ∃ o, Query.Yields (· = rows) q o ∧ o.map kind = found := by
  simp only [read_as, Query.yields_bind, Query.yields_pure]

/-- What is read after a definition was created or updated is what is left of it. -/
theorem get_of_performs {d : Definition} {id : Uuid} (hintact : Intact rows) (hwf : d.Wf)
    (h : Performs (d.create tag_id id) rows rows' ∨ Performs (d.update tag_id) rows rows') :
    Query.Yields (· = rows') d.get (some d.stored) := by
  have hupserts : Upserts rows rows' d := h.elim (upserts_of_create hintact hwf) (upserts_of_update hintact hwf)
  have hholds : Holds rows' d.stored := (hupserts d.stored).mpr (.inl rfl)
  cases d with
  | service s => exact yields_read_as.mpr ⟨_, store.service.yields_get_by_slug.mpr ⟨hholds, rfl, rfl⟩, rfl⟩
  | api_call t =>
    refine yields_read_as.mpr ⟨some ⟨store.api_call.stored t.api_call, t.tags⟩, ?_, rfl⟩
    obtain h | h := h
    · obtain ⟨_, _, hwritten⟩ := store.api_call.written_of_create hintact h
      exact hwritten.get hwf
    · obtain ⟨_, _, _, hwritten⟩ := store.api_call.written_of_update hintact h
      exact hwritten.get hwf
  | script t => exact yields_read_as.mpr ⟨_, store.script.yields_get.mpr ⟨hholds, rfl, rfl⟩, rfl⟩
  | endpoint e => exact yields_read_as.mpr ⟨_, store.endpoint.yields_get.mpr ⟨hholds, rfl, rfl⟩, rfl⟩

end Definition

end api2mcp.store
