import Api2Mcp.Json.Number
import Api2Mcp.Pack.Credentials
import Api2Mcp.Store.Puts

/-! `impl PartialEq` of the definitions, which hold JSON values. -/

namespace serde_json

/-- `impl PartialEq for Option<Value>`. -/
def Value.eqOption : Option Value → Option Value → Bool
  | none, none => true
  | some a, some b => a.eq b
  | _, _ => false

theorem Number.eq_refl (x : Number) : x.eq x = true := by
  cases x <;> simp [Number.eq]

theorem Value.eqItems_refl {items : List Value} (h : ∀ item ∈ items, item.eq item = true) :
    Value.eqItems items items = true := by
  induction items with
  | nil => rfl
  | cons item items ih =>
    rw [Value.eqItems, h item List.mem_cons_self, ih fun v hv => h v (List.mem_cons_of_mem item hv)]
    rfl

theorem Value.eqFields_refl {fields : Map} (h : ∀ field ∈ fields, field.2.eq field.2 = true) :
    Value.eqFields fields fields = true := by
  induction fields with
  | nil => rfl
  | cons field fields ih =>
    obtain ⟨k, v⟩ := field
    have hhead := h (k, v) List.mem_cons_self
    rw [Value.eqFields, ih fun f hf => h f (List.mem_cons_of_mem _ hf), hhead]
    simp

theorem Value.eq_refl (v : Value) : v.eq v = true := by
  induction v using Value.ind with
  | null => rw [Value.eq]
  | bool b => simp [Value.eq]
  | number x => rw [Value.eq, Number.eq_refl]
  | string s => simp [Value.eq]
  | array items ih => rw [Value.eq, Value.eqItems_refl ih]
  | object fields ih => rw [Value.eq, Value.eqFields_refl ih]

theorem Value.eqOption_refl (o : Option Value) : Value.eqOption o o = true := by
  cases o with
  | none => rfl
  | some v => exact v.eq_refl

end serde_json

namespace api2mcp.model

open serde_json

def Param.eq (a b : Param) : Bool :=
  a.name = b.name && a.location = b.location && a.ty = b.ty && a.required = b.required &&
    Value.eqOption a.default b.default && Value.eqOption a.fixed b.fixed &&
    (match a.enum_values, b.enum_values with
      | none, none => true
      | some xs, some ys => Value.eqItems xs ys
      | _, _ => false) &&
    a.description = b.description && a.position = b.position

def Param.eqList : List Param → List Param → Bool
  | [], [] => true
  | a :: as, b :: bs => a.eq b && Param.eqList as bs
  | _, _ => false

def ApiCall.eq (a b : ApiCall) : Bool :=
  a.owner_id = b.owner_id && a.slug = b.slug && a.service_slug = b.service_slug && a.method = b.method &&
    a.path_template = b.path_template && a.query_fixed = b.query_fixed &&
    Value.eqOption a.body_template b.body_template && a.access = b.access && a.idempotent = b.idempotent &&
    a.projection = b.projection && a.pagination = b.pagination && a.timeout_ms = b.timeout_ms &&
    a.max_response_bytes = b.max_response_bytes && Param.eqList a.params b.params && a.description = b.description

def ScriptDef.eq (a b : ScriptDef) : Bool :=
  a.owner_id = b.owner_id && a.slug = b.slug && a.source = b.source && Param.eqList a.params b.params &&
    a.callable = b.callable && a.budgets = b.budgets && a.description = b.description

theorem Param.eq_refl (p : Param) : p.eq p = true := by
  have henum : (match p.enum_values, p.enum_values with
      | none, none => true
      | some xs, some ys => Value.eqItems xs ys
      | _, _ => false) = true := by
    cases p.enum_values with
    | none => rfl
    | some xs => exact Value.eqItems_refl fun v _ => v.eq_refl
  simp only [Param.eq, Value.eqOption_refl, decide_true, Bool.and_self, Bool.true_and, Bool.and_true]
  exact henum

theorem Param.eqList_refl (ps : List Param) : Param.eqList ps ps = true := by
  induction ps with
  | nil => rfl
  | cons p ps ih => rw [Param.eqList, p.eq_refl, ih, Bool.and_self]

theorem ApiCall.eq_refl (c : ApiCall) : c.eq c = true := by
  simp [ApiCall.eq, Value.eqOption_refl, Param.eqList_refl]

theorem ScriptDef.eq_refl (s : ScriptDef) : s.eq s = true := by
  simp [ScriptDef.eq, Param.eqList_refl]

end api2mcp.model

namespace api2mcp.store

/-- What was found is compared with what is put. -/
def Definition.eq : Definition → Definition → Bool
  | .service a, .service b => a = b
  | .api_call a, .api_call b => a.api_call.eq b.api_call && a.tags = b.tags
  | .script a, .script b => a.script.eq b.script && a.tags = b.tags
  | .endpoint a, .endpoint b => a = b
  | _, _ => false

theorem Definition.eq_refl (d : Definition) : d.eq d = true := by
  cases d with
  | service s => simp [Definition.eq]
  | api_call t => simp [Definition.eq, t.api_call.eq_refl]
  | script t => simp [Definition.eq, t.script.eq_refl]
  | endpoint e => simp [Definition.eq]

end api2mcp.store

namespace api2mcp.pack

open relational btree concurrent except
open api2mcp.model api2mcp.store api2mcp.entity

inductive ImportError where
  | Convert (e : ConvertError)
  | Store (message : String)

/-- `impl Display for ImportError`. -/
def ImportError.to_string : ImportError → String
  | .Convert e => e.to_string
  | .Store message => message

inductive ImportChange where
  | Created
  | Updated
  | Unchanged
  deriving DecidableEq

/-- What importing a pack did to each definition it names. -/
structure ImportReport where
  services : List (String × ImportChange)
  api_calls : List (String × ImportChange)
  scripts : List (String × ImportChange)
  endpoints : List (String × ImportChange)

/-- What was done to each definition, in the order in which it was. -/
def ImportReport.changes (report : ImportReport) : List ImportChange :=
  (report.services ++ report.api_calls ++ report.scripts ++ report.endpoints).map Prod.snd

/-- Each write is a transaction of its own: the rows written before an error stay. -/
abbrev Import (α : Type) := ExceptT ImportError (StateM Rows) α

def convert {α : Type} (x : Except ConvertError α) : Import α := fun rows => (x.mapError .Convert, rows)

def read {α : Type} (q : Fetch α) : Import α := fun rows =>
  ((q.run.eval rows).mapError fun e => .Store e.to_string, rows)

/-- A store method, alone: what it reads, its transaction, and what is left. -/
def write (q : Rows → Fetch Write) : Import Unit := fun rows =>
  match (q rows).run.eval rows >>= Write.apply rows with
  | .ok rows' => (.ok (), rows')
  | .error e => (.error (.Store e.to_string), rows)

def classify (existing : Option Definition) (model : Definition) : ImportChange :=
  match existing with
  | none => .Created
  | some row => if row.eq model then .Unchanged else .Updated

/-- Nothing is written in a dry run; what is unchanged is written again otherwise. -/
def import_item (keys : NewKeys) (dry_run : Bool) (model : Definition) : Import ImportChange := do
  let existing ← read model.get
  if !dry_run then
    write fun rows => model.put keys rows existing
  return classify existing model

def import_entry {α : Type} (keys : NewKeys) (dry_run : Bool) (item : String × α → Except ConvertError Definition)
    (entry : String × α) : Import (String × ImportChange) := do
  let model ← convert (item entry)
  let change ← import_item keys dry_run model
  return (entry.1, change)

section

variable (url : net.UrlCrate) (pointer_error : String → String)

def service_item (owner_id : Uuid) (entry : String × PackService) : Except ConvertError Definition := do
  let slug ← parse_slug entry.1
  let model ← service_from_pack url owner_id slug entry.2
  return .service model

def api_call_item (owner_id : Uuid) (entry : String × PackApiCall) : Except ConvertError Definition := do
  let slug ← parse_slug entry.1
  let service_slug ← parse_slug entry.2.service
  let model ← api_call_from_pack pointer_error owner_id slug service_slug entry.2
  let tags ← tags_from_pack entry.2.tags
  return .api_call ⟨model, tags⟩

def script_item (owner_id : Uuid) (entry : String × PackScript) : Except ConvertError Definition := do
  let slug ← parse_slug entry.1
  let model ← script_from_pack pointer_error owner_id slug entry.2
  let tags ← tags_from_pack entry.2.tags
  return .script ⟨model, tags⟩

def endpoint_item (owner_id : Uuid) (entry : String × PackEndpoint) : Except ConvertError Definition := do
  let slug ← parse_slug entry.1
  let model ← endpoint_from_pack owner_id slug entry.2
  return .endpoint model

/-- `import`. -/
def import_pack (keys : NewKeys) (p : Pack) (dry_run : Bool) (owner_id : Uuid) : Import ImportReport := do
  let services ← p.services.mapM (import_entry keys dry_run (service_item url owner_id))
  let api_calls ← p.api_calls.mapM (import_entry keys dry_run (api_call_item pointer_error owner_id))
  let scripts ← p.scripts.mapM (import_entry keys dry_run (script_item pointer_error owner_id))
  let endpoints ← p.endpoints.mapM (import_entry keys dry_run (endpoint_item owner_id))
  return ⟨services, api_calls, scripts, endpoints⟩

/-- The definitions of a pack, in the order in which they are imported. -/
def definitions (p : Pack) (owner_id : Uuid) : Except ConvertError (List Definition) := do
  let services ← p.services.mapM (service_item url owner_id)
  let api_calls ← p.api_calls.mapM (api_call_item pointer_error owner_id)
  let scripts ← p.scripts.mapM (script_item pointer_error owner_id)
  let endpoints ← p.endpoints.mapM (endpoint_item owner_id)
  return services ++ api_calls ++ scripts ++ endpoints

end

section

variable {keys : NewKeys} {rows rows' : Rows}

theorem runs_convert {α : Type} {x : Except ConvertError α} {a : α} :
    Runs (convert x) rows a rows' ↔ x = .ok a ∧ rows' = rows := by
  rw [← mapError_eq_ok (f := ImportError.Convert), eq_comm (a := rows')]
  exact Prod.mk_inj

theorem runs_read {α : Type} {q : Fetch α} {a : α} :
    Runs (read q) rows a rows' ↔ Query.Yields (· = rows) q a ∧ rows' = rows := by
  rw [Query.yields_eval, ← mapError_eq_ok (f := fun e => ImportError.Store e.to_string), eq_comm (a := rows')]
  exact Prod.mk_inj

theorem runs_write {q : Rows → Fetch Write} {u : Unit} :
    Runs (write q) rows u rows' ↔ Performs (q rows) rows rows' := by
  have hperforms : Performs (q rows) rows rows' ↔ (q rows).run.eval rows >>= (fun w => w.apply rows) = .ok rows' := by
    simp only [Performs, Query.yields_eval, bind_eq_ok]
  have hrun : (((write q).run.run rows).run : Except ImportError Unit × Rows) =
      match (q rows).run.eval rows >>= (fun w => w.apply rows) with
      | .ok rows' => (.ok (), rows')
      | .error e => (.error (.Store e.to_string), rows) := rfl
  rw [hperforms, Runs, hrun]
  cases (q rows).run.eval rows >>= (fun w => w.apply rows) with
  | ok rows'' => simp
  | error e => simp

/-- An item is imported exactly as the store puts it. -/
theorem runs_import_item {d : Definition} {change : ImportChange} :
    Runs (import_item keys false d) rows change rows' ↔ ∃ found, Puts keys found d rows rows' ∧ classify found d = change := by
  have hitem : import_item keys false d = (do
      let existing ← read d.get
      write fun rows => d.put keys rows existing
      return classify existing d) := rfl
  simp only [hitem, runs_bind, runs_read, runs_write, runs_pure, Puts]
  constructor
  · rintro ⟨found, _, ⟨hfound, rfl⟩, _, _, hput, rfl, rfl⟩
    exact ⟨found, ⟨hfound, hput⟩, rfl⟩
  · rintro ⟨found, ⟨hfound, hput⟩, rfl⟩
    exact ⟨found, rows, ⟨hfound, rfl⟩, (), rows', hput, rfl, rfl⟩

theorem runs_import_entry {α : Type} {item : String × α → Except ConvertError Definition} {entry : String × α}
    {out : String × ImportChange} :
    Runs (import_entry keys false item entry) rows out rows' ↔
      ∃ d found, item entry = .ok d ∧ Puts keys found d rows rows' ∧ (entry.1, classify found d) = out := by
  simp only [import_entry, runs_bind, runs_convert, runs_import_item, runs_pure]
  constructor
  · rintro ⟨d, _, ⟨hitem, rfl⟩, _, _, ⟨found, hputs, rfl⟩, rfl, rfl⟩
    exact ⟨d, found, hitem, hputs, rfl⟩
  · rintro ⟨d, found, hitem, hputs, rfl⟩
    exact ⟨d, rows, ⟨hitem, rfl⟩, _, rows', ⟨found, hputs, rfl⟩, rfl, rfl⟩

/-- A map is imported exactly as its definitions are put in turn. -/
theorem runs_entries {α : Type} {item : String × α → Except ConvertError Definition} {entries : List (String × α)}
    {out : List (String × ImportChange)} :
    Runs (entries.mapM (import_entry keys false item)) rows out rows' ↔
      ∃ ds founds, entries.mapM item = .ok ds ∧ PutsAll keys founds ds rows rows' ∧
        List.zip (entries.map Prod.fst) (List.zipWith classify founds ds) = out := by
  induction entries generalizing rows rows' out with
  | nil =>
    simp only [List.mapM_nil, runs_pure, pure_eq_ok]
    constructor
    · rintro ⟨rfl, rfl⟩
      exact ⟨[], [], rfl, .nil rows, rfl⟩
    · rintro ⟨_, founds, rfl, hputs, rfl⟩
      cases hputs
      exact ⟨rfl, rfl⟩
  | cons entry entries ih =>
    simp only [List.mapM_cons, runs_bind, runs_import_entry, runs_pure, ih, bind_eq_ok, pure_eq_ok]
    constructor
    · rintro ⟨_, mid, ⟨d, found, hitem, hputs, rfl⟩, _, _, ⟨ds, founds, hitems, hrest, rfl⟩, rfl, rfl⟩
      exact ⟨d :: ds, found :: founds, ⟨d, hitem, ds, hitems, rfl⟩, .cons hputs hrest, rfl⟩
    · rintro ⟨_, _, ⟨d, hitem, ds, hitems, rfl⟩, hputs, rfl⟩
      cases hputs with
      | cons head rest =>
        exact ⟨_, _, ⟨d, _, hitem, head, rfl⟩, _, rows', ⟨ds, _, hitems, rest, rfl⟩, rfl, rfl⟩

variable {url : net.UrlCrate} {pointer_error : String → String} {p : Pack} {owner_id : Uuid}

/-- What the entries of a map were found to be is what was made of each. -/
theorem changes_of_entries {α : Type} {item : String × α → Except ConvertError Definition}
    {entries : List (String × α)} {ds : List Definition} {founds : List (Option Definition)}
    (hds : entries.mapM item = .ok ds) (hputs : PutsAll keys founds ds rows rows') :
    (List.zip (entries.map Prod.fst) (List.zipWith classify founds ds)).map Prod.snd = List.zipWith classify founds ds := by
  refine List.map_snd_zip ?_
  have hlength := (mapM_eq_ok.mp hds).length_eq
  rw [List.length_zipWith, hputs.length_eq, List.length_map, hlength]
  exact Nat.min_le_left _ _

/-- A pack is imported exactly as its definitions are put in turn. -/
theorem runs_import_pack {report : ImportReport}
    (h : Runs (import_pack url pointer_error keys p false owner_id) rows report rows') :
    ∃ ds founds, definitions url pointer_error p owner_id = .ok ds ∧ PutsAll keys founds ds rows rows' ∧
      report.changes = List.zipWith classify founds ds := by
  simp only [import_pack, runs_bind, runs_entries, runs_pure] at h
  obtain ⟨_, _, ⟨ss, fs, hss, hservices, rfl⟩, _, _, ⟨cs, fc, hcs, hcalls, rfl⟩, _, _, ⟨ts, ft, hts, hscripts, rfl⟩, _,
    _, ⟨es, fe, hes, hendpoints, rfl⟩, rfl, rfl⟩ := h
  have hfirst := PutsAll.append_iff.mpr ⟨_, _, _, rfl, hservices, hcalls⟩
  have hsecond := PutsAll.append_iff.mpr ⟨_, _, _, rfl, hfirst, hscripts⟩
  refine ⟨_, _, ?_, PutsAll.append_iff.mpr ⟨_, _, _, rfl, hsecond, hendpoints⟩, ?_⟩
  · simp only [definitions, bind_eq_ok, pure_eq_ok]
    exact ⟨ss, hss, cs, hcs, ts, hts, es, hes, rfl⟩
  · simp only [ImportReport.changes, List.map_append, changes_of_entries hss hservices, changes_of_entries hcs hcalls,
      changes_of_entries hts hscripts, changes_of_entries hes hendpoints, List.zipWith_append hsecond.length_eq,
      List.zipWith_append hfirst.length_eq, List.zipWith_append hservices.length_eq]

/-- Definitions that can be put in turn can be imported. -/
theorem exists_runs_import_pack {ds : List Definition} {founds : List (Option Definition)}
    (hds : definitions url pointer_error p owner_id = .ok ds) (hputs : PutsAll keys founds ds rows rows') :
    ∃ report, Runs (import_pack url pointer_error keys p false owner_id) rows report rows' := by
  simp only [definitions, bind_eq_ok, pure_eq_ok] at hds
  obtain ⟨ss, hss, cs, hcs, ts, hts, es, hes, rfl⟩ := hds
  obtain ⟨_, fe, _, rfl, hputs, hendpoints⟩ := PutsAll.append_iff.mp hputs
  obtain ⟨_, ft, _, rfl, hputs, hscripts⟩ := PutsAll.append_iff.mp hputs
  obtain ⟨fs, fc, _, rfl, hservices, hcalls⟩ := PutsAll.append_iff.mp hputs
  simp only [import_pack, runs_bind, runs_entries, runs_pure]
  exact ⟨_, _, _, ⟨ss, fs, hss, hservices, rfl⟩, _, _, ⟨cs, fc, hcs, hcalls, rfl⟩, _, _, ⟨ts, ft, hts, hscripts, rfl⟩,
    _, _, ⟨es, fe, hes, hendpoints, rfl⟩, rfl, rfl⟩

/-! What an import leaves, whether it comes to its end or not. -/

section

variable {dry_run : Bool} {α : Type} {item : String × α → Except ConvertError Definition}

theorem after_write (q : Rows → Fetch Write) :
    after (write q) rows = rows ∨ Performs (q rows) rows (after (write q) rows) := by
  have hrun : (((write q).run.run rows).run : Except ImportError Unit × Rows) =
      match (q rows).run.eval rows >>= (fun w => w.apply rows) with
      | .ok rows' => (.ok (), rows')
      | .error e => (.error (.Store e.to_string), rows) := rfl
  cases happly : (q rows).run.eval rows >>= (fun w => w.apply rows) with
  | ok rows' =>
    rw [happly] at hrun
    have hruns : Runs (write q) rows () rows' := hrun
    rw [hruns.after]
    exact .inr (runs_write.mp hruns)
  | error e =>
    rw [happly] at hrun
    exact .inl (congrArg Prod.snd hrun)

/-- An item is put, or everything is left as it is. -/
theorem after_import_item (d : Definition) :
    after (import_item keys dry_run d) rows = rows ∨
      dry_run = false ∧ ∃ found, Puts keys found d rows (after (import_item keys dry_run d) rows) := by
  cases dry_run with
  | true =>
    have hitem : import_item keys true d = (do
        let existing ← read d.get
        return classify existing d) := rfl
    rw [hitem]
    refine .inl (after_bind (P := (· = rows)) rfl fun found mid hfound => ?_)
    exact (runs_read.mp hfound).2
  | false =>
    have hitem : import_item keys false d = (do
        let existing ← read d.get
        write fun rows => d.put keys rows existing
        return classify existing d) := rfl
    rw [hitem]
    refine Or.imp_right (fun hputs => ⟨rfl, hputs⟩) ?_
    refine after_bind (P := fun rows' => rows' = rows ∨ ∃ found, Puts keys found d rows rows') (.inl rfl)
      fun found mid hfound => ?_
    obtain ⟨hfound, rfl⟩ := runs_read.mp hfound
    refine after_bind (P := fun rows' => rows' = mid ∨ ∃ found, Puts keys found d mid rows')
      ((after_write _).imp_right fun hperforms => ⟨found, hfound, hperforms⟩) fun u last hlast => ?_
    exact .inr ⟨found, hfound, runs_write.mp hlast⟩

theorem after_import_entry (entry : String × α) :
    after (import_entry keys dry_run item entry) rows = rows ∨
      dry_run = false ∧ ∃ d found, item entry = .ok d ∧
        Puts keys found d rows (after (import_entry keys dry_run item entry) rows) := by
  refine after_bind (P := fun rows' => rows' = rows ∨ dry_run = false ∧ ∃ d found, item entry = .ok d ∧
    Puts keys found d rows rows') (.inl rfl) fun d mid hd => ?_
  obtain ⟨hitem, rfl⟩ := runs_convert.mp hd
  have hleft : after (import_item keys dry_run d) mid = mid ∨ dry_run = false ∧ ∃ d' found, item entry = .ok d' ∧
      Puts keys found d' mid (after (import_item keys dry_run d) mid) :=
    (after_import_item d).imp_right fun ⟨hdry, found, hputs⟩ => ⟨hdry, d, found, hitem, hputs⟩
  refine after_bind (P := fun rows' => rows' = mid ∨ dry_run = false ∧ ∃ d' found, item entry = .ok d' ∧
    Puts keys found d' mid rows') hleft fun change last hchange => ?_
  rw [hchange.after] at hleft
  exact hleft

/-- A dry run leaves everything as it is. -/
theorem after_dry_entries (entries : List (String × α)) :
    after (entries.mapM (import_entry keys true item)) rows = rows := by
  refine after_mapM (P := (· = rows)) (fun entry _ rows' hrows => ?_) rfl
  obtain hsame | ⟨hdry, _⟩ := @after_import_entry keys rows' true _ item entry
  · exact hsame.trans hrows
  · cases hdry

theorem after_dry_run : after (import_pack url pointer_error keys p true owner_id) rows = rows := by
  have hstage : ∀ {β : Type} {item : String × β → Except ConvertError Definition} {entries : List (String × β)}
      {out : List (String × ImportChange)} {mid : Rows},
      Runs (entries.mapM (import_entry keys true item)) rows out mid → mid = rows := fun hruns =>
    hruns.after.symm.trans (after_dry_entries _)
  refine after_bind (P := (· = rows)) (after_dry_entries _) fun ss mid hss => ?_
  obtain rfl := hstage hss
  refine after_bind (P := (· = mid)) (after_dry_entries _) fun cs mid' hcs => ?_
  obtain rfl := hstage hcs
  refine after_bind (P := (· = mid')) (after_dry_entries _) fun ts mid hts => ?_
  obtain rfl := hstage hts
  refine after_bind (P := (· = mid)) (after_dry_entries _) fun es mid' hes => ?_
  exact hstage hes

end

/-! The definitions of a pack bear the names they stand under. -/

/-- A definition of the owner bears the name of its entry. -/
def Named {α : Type} (kind : Uuid → Slug → Key) (owner_id : Uuid) (entry : String × α) (d : Definition) : Prop :=
  d.Wf ∧ ∃ slug : Slug, d.key = kind owner_id slug ∧ slug.as_str = entry.1

theorem parse_slug_eq_ok {s : String} {slug : Slug} (h : parse_slug s = .ok slug) : slug.as_str = s :=
  Slug.as_str_of_from_str (mapError_eq_ok.mp h)

theorem tags_from_pack_sorted {tags : BTreeSet String} {out : BTreeSet Tag} (h : tags_from_pack tags = .ok out) :
    out.Sorted := by
  simp only [tags_from_pack, bind_eq_ok, pure_eq_ok] at h
  obtain ⟨_, _, rfl⟩ := h
  exact BTreeSet.sorted_collect _

theorem service_item_named {entry : String × PackService} {d : Definition}
    (h : service_item url owner_id entry = .ok d) : Named .service owner_id entry d := by
  simp only [service_item, service_from_pack, bind_eq_ok, pure_eq_ok] at h
  obtain ⟨slug, hslug, _, ⟨_, _, _, _, rfl⟩, rfl⟩ := h
  exact ⟨trivial, slug, rfl, parse_slug_eq_ok hslug⟩

theorem api_call_item_named {entry : String × PackApiCall} {d : Definition}
    (h : api_call_item pointer_error owner_id entry = .ok d) : Named .api_call owner_id entry d := by
  simp only [api_call_item, api_call_from_pack, bind_eq_ok, pure_eq_ok] at h
  obtain ⟨slug, hslug, _, _, _, ⟨_, _, _, _, _, _, _, _, _, _, rfl⟩, tags, htags, rfl⟩ := h
  exact ⟨tags_from_pack_sorted htags, slug, rfl, parse_slug_eq_ok hslug⟩

theorem script_item_named {entry : String × PackScript} {d : Definition}
    (h : script_item pointer_error owner_id entry = .ok d) : Named .script owner_id entry d := by
  simp only [script_item, script_from_pack, bind_eq_ok, pure_eq_ok] at h
  obtain ⟨slug, hslug, _, ⟨_, _, _, _, rfl⟩, tags, htags, rfl⟩ := h
  exact ⟨⟨tags_from_pack_sorted htags, BTreeMap.sorted_collect _⟩, slug, rfl, parse_slug_eq_ok hslug⟩

theorem endpoint_item_named {entry : String × PackEndpoint} {d : Definition}
    (h : endpoint_item owner_id entry = .ok d) : Named .endpoint owner_id entry d := by
  simp only [endpoint_item, endpoint_from_pack, bind_eq_ok, pure_eq_ok] at h
  obtain ⟨slug, hslug, _, ⟨_, _, _, _, _, _, _, _, rfl⟩, rfl⟩ := h
  exact ⟨⟨BTreeMap.sorted_collect _, BTreeSet.sorted_collect _⟩, slug, rfl, parse_slug_eq_ok hslug⟩

/-- What a loop that came to its end holds the names of. -/
theorem has_of_entries {α : Type} {item : String × α → Except ConvertError Definition} {kind : Uuid → Slug → Key}
    {entries : List (String × α)}
    (hnamed : ∀ entry d, item entry = .ok d → Named kind owner_id entry d) (hintact : Intact rows)
    {out : List (String × ImportChange)} (hruns : Runs (entries.mapM (import_entry keys false item)) rows out rows') :
    (∀ key, Has rows key → Has rows' key) ∧
      ∀ (slug : Slug) value, (slug.as_str, value) ∈ entries → Has rows' (kind owner_id slug) := by
  obtain ⟨ds, founds, hds, hputs, _⟩ := runs_entries.mp hruns
  have hds := mapM_eq_ok.mp hds
  have hwf : ∀ d ∈ ds, d.Wf := by
    intro d hd
    obtain ⟨entry, _, hread⟩ := pointwise.exists_left hds hd
    exact (hnamed entry d hread).1
  have hhas := hputs.has_iff hintact hwf
  refine ⟨fun key hkey => (hhas key).mpr (.inr hkey), fun slug value hentry => ?_⟩
  obtain ⟨d, hd, hread⟩ := pointwise.exists_right hds hentry
  obtain ⟨_, slug', hkey, hslug⟩ := hnamed _ d hread
  obtain rfl := Slug.ext_str hslug
  exact (hhas _).mpr (.inl ⟨d, hd, hkey⟩)

/-- Entries under different names are definitions of different names. -/
theorem distinct_of_named {α : Type} {kind : Uuid → Slug → Key} (hinj : ∀ a b, kind owner_id a = kind owner_id b → a = b)
    {item : String × α → Except ConvertError Definition}
    (hitem : ∀ entry d, item entry = .ok d → Named kind owner_id entry d) {entries : BTreeMap String α}
    (hsorted : entries.Sorted) {ds : List Definition} (hds : entries.mapM item = .ok ds) :
    ds.Pairwise (fun d d' => d.key ≠ d'.key) ∧ ∀ d ∈ ds, d.Wf ∧ ∃ slug, d.key = kind owner_id slug := by
  have hnamed := (mapM_eq_ok.mp hds).imp hitem
  constructor
  · refine pointwise.pairwise hnamed ?_ hsorted.apart
    rintro entry d entry' d' ⟨_, slug, hkey, hname⟩ ⟨_, slug', hkey', hname'⟩ hne hsame
    rw [hkey, hkey'] at hsame
    exact hne (by rw [← hname, ← hname', hinj slug slug' hsame])
  · intro d hd
    obtain ⟨entry, _, hwf, slug, hkey, _⟩ := pointwise.exists_left hnamed hd
    exact ⟨hwf, slug, hkey⟩

/-- The maps of a pack are in the order of their keys. -/
structure Pack.Sorted (p : Pack) : Prop where
  services : p.services.Sorted
  api_calls : p.api_calls.Sorted
  scripts : p.scripts.Sorted
  endpoints : p.endpoints.Sorted

theorem definitions_spec (hsorted : p.Sorted) {ds : List Definition}
    (hds : definitions url pointer_error p owner_id = .ok ds) :
    ds.Pairwise (fun d d' => d.key ≠ d'.key) ∧ ∀ d ∈ ds, d.Wf ∧ d.key.owner_id = owner_id := by
  simp only [definitions, bind_eq_ok, pure_eq_ok] at hds
  obtain ⟨ss, hss, cs, hcs, ts, hts, es, hes, rfl⟩ := hds
  obtain ⟨hss, hservices⟩ := @distinct_of_named _ _ .service (fun a b h => (Key.service.inj h).2) _
    (fun _ _ => service_item_named) _ hsorted.services _ hss
  obtain ⟨hcs, hcalls⟩ := @distinct_of_named _ _ .api_call (fun a b h => (Key.api_call.inj h).2) _
    (fun _ _ => api_call_item_named) _ hsorted.api_calls _ hcs
  obtain ⟨hts, hscripts⟩ := @distinct_of_named _ _ .script (fun a b h => (Key.script.inj h).2) _
    (fun _ _ => script_item_named) _ hsorted.scripts _ hts
  obtain ⟨hes, hendpoints⟩ := @distinct_of_named _ _ .endpoint (fun a b h => (Key.endpoint.inj h).2) _
    (fun _ _ => endpoint_item_named) _ hsorted.endpoints _ hes
  have hapart : ∀ {kind kind' : Uuid → Slug → Key} {xs ys : List Definition},
      (∀ a b, kind owner_id a ≠ kind' owner_id b) → (∀ d ∈ xs, d.Wf ∧ ∃ slug, d.key = kind owner_id slug) →
      (∀ d ∈ ys, d.Wf ∧ ∃ slug, d.key = kind' owner_id slug) → ∀ d ∈ xs, ∀ d' ∈ ys, d.key ≠ d'.key := by
    intro kind kind' xs ys hkinds hxs hys d hd d' hd'
    obtain ⟨_, slug, hkey⟩ := hxs d hd
    obtain ⟨_, slug', hkey'⟩ := hys d' hd'
    rw [hkey, hkey']
    exact hkinds slug slug'
  constructor
  · refine List.pairwise_append.mpr ⟨List.pairwise_append.mpr ⟨List.pairwise_append.mpr ⟨hss, hcs, ?_⟩, hts, ?_⟩, hes, ?_⟩
    · exact hapart (by rintro _ _ ⟨⟩) hservices hcalls
    · refine List.forall_mem_append.mpr ⟨?_, ?_⟩
      · exact hapart (by rintro _ _ ⟨⟩) hservices hscripts
      · exact hapart (by rintro _ _ ⟨⟩) hcalls hscripts
    · refine List.forall_mem_append.mpr ⟨List.forall_mem_append.mpr ⟨?_, ?_⟩, ?_⟩
      · exact hapart (by rintro _ _ ⟨⟩) hservices hendpoints
      · exact hapart (by rintro _ _ ⟨⟩) hcalls hendpoints
      · exact hapart (by rintro _ _ ⟨⟩) hscripts hendpoints
  · simp only [List.forall_mem_append]
    have howned : ∀ {kind : Uuid → Slug → Key} {ds : List Definition}, (∀ slug, (kind owner_id slug).owner_id = owner_id) →
        (∀ d ∈ ds, d.Wf ∧ ∃ slug, d.key = kind owner_id slug) → ∀ d ∈ ds, d.Wf ∧ d.key.owner_id = owner_id := by
      intro kind ds hkind hds d hd
      obtain ⟨hwf, slug, hkey⟩ := hds d hd
      exact ⟨hwf, by rw [hkey, hkind]⟩
    exact ⟨⟨⟨howned (fun _ => rfl) hservices, howned (fun _ => rfl) hcalls⟩, howned (fun _ => rfl) hscripts⟩,
      howned (fun _ => rfl) hendpoints⟩

/-- Nothing of the owner's is stored. -/
structure NoDefinitions (rows : Rows) (owner_id : Uuid) : Prop where
  definitions : ∀ x, Holds rows x → x.key.owner_id ≠ owner_id
  auth_providers : ∀ p ∈ rows.auth_providers.rows, p.owner_id ≠ owner_id

end

/-! A pack of one service and one api_call, both of the name of the examples. -/

/-- What the URL crate reads, of the base URL and of the origin. -/
def sample_crate : net.UrlCrate :=
  { (default : net.UrlCrate) with
    parse := fun _ => .ok { scheme := "https", host := some (.Domain "crm.example") } }

def sample_pack : Pack where
  version := PACK_VERSION
  services := [("crm", { base_url := "https://crm.example/", origin_allowlist := ["https://crm.example"]
                         default_headers := [], timeout_ms := 5000, max_concurrency := 4, rate_limit_per_min := none
                         max_response_bytes := 1000000 })]
  api_calls := [("crm", { service := "crm", method := "GET", path_template := "/", query_fixed := []
                          body_template := none, access := "read", idempotent := true, projection := none
                          pagination := .None, timeout_ms := none, max_response_bytes := none, params := []
                          tags := [], description := none })]
  scripts := []
  endpoints := []
  tags := []

def sample_service : Service where
  owner_id := 1
  slug := .crm
  base_url := { scheme := "https", host := some (.Domain "crm.example") }
  origin_allowlist := [.crm]
  default_headers := []
  timeout_ms := 5000
  max_concurrency := 4
  rate_limit_per_min := none
  max_response_bytes := 1000000

def sample_call : ApiCall where
  owner_id := 1
  slug := .crm
  service_slug := .crm
  method := .GET
  path_template := "/"
  query_fixed := []
  body_template := none
  access := .Read
  idempotent := true
  projection := none
  pagination := .None
  timeout_ms := none
  max_response_bytes := none
  params := []
  description := none

theorem sample_definitions (pointer_error : String → String) :
    definitions sample_crate pointer_error sample_pack 1 = .ok [.service sample_service, .api_call ⟨sample_call, []⟩] := by
  have hslug : parse_slug "crm" = .ok .crm := mapError_eq_ok.mpr (Slug.from_str_as_str .crm)
  have horigin : parse_origin sample_crate "https://crm.example" = .ok .crm := rfl
  have hmethod : method_from_str "GET" = .ok .GET := rfl
  simp only [definitions, bind_eq_ok, pure_eq_ok]
  refine ⟨[.service sample_service], ?_, [.api_call ⟨sample_call, []⟩], ?_, [], rfl, [], rfl, rfl⟩
  · refine mapM_eq_ok.mpr (.cons ?_ .nil)
    simp only [service_item, service_from_pack, bind_eq_ok, pure_eq_ok]
    exact ⟨.crm, hslug, sample_service, ⟨_, rfl, [.crm], mapM_eq_ok.mpr (.cons horigin .nil), rfl⟩, rfl⟩
  · refine mapM_eq_ok.mpr (.cons ?_ .nil)
    simp only [api_call_item, api_call_from_pack, bind_eq_ok, pure_eq_ok]
    exact ⟨.crm, hslug, .crm, hslug, sample_call, ⟨.GET, hmethod, .Read, rfl, none, rfl, .None, rfl, [], rfl, rfl⟩, [],
      rfl, rfl⟩

theorem sample_valid : validate sample_crate default sample_pack = .ok () := by
  have herrors : validation_errors sample_crate default sample_pack = [] := by decide +kernel
  rw [validate, herrors]
  rfl

end api2mcp.pack
