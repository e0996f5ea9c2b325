import Api2Mcp.Pack.Valid
import Api2Mcp.Server.Api.AuthProviders

namespace api2mcp.server.api.packs

open relational btree concurrent except serde_json
open api2mcp.model api2mcp.store api2mcp.entity api2mcp.pack

/-! Packs that are exported and imported over the API. The body of an import is
held parsed. -/

/-- The statements of a request run with no other between them. -/
abbrev Handler (α : Type) := ExceptT ApiError (StateM Rows) α

def export_pack (caller_id : Uuid) (slug : String) : Handler Pack := fun rows =>
  let exported := do
    let endpoint_slug ← (convert.parse_slug slug).mapError ApiError.BadRequest
    ((export_endpoint caller_id endpoint_slug).run.eval rows).mapError fun
      | .EndpointNotFound slug => .NotFound (ExportError.EndpointNotFound slug).to_string
      | other => .BadRequest other.to_string
  (exported, rows)

section

variable (url : net.UrlCrate) (json : JsonCrate) (pointer_error : String → String)

def import_pack (keys : NewKeys) (pack : Pack) (dry_run : Bool) (caller_id : Uuid) : Handler ImportReport :=
  match validate url json pack with
  | .error errors => throw (.Validation (errors.map (·.to_string)))
  | .ok () => ExceptT.adapt (fun e : ImportError => .BadRequest e.to_string)
      (api2mcp.pack.import_pack url pointer_error keys pack dry_run caller_id)

/-- An import that is posted: what is parsed of its body, and for whom. -/
structure Posted where
  caller_id : Uuid
  pack : Pack
  dry_run : Bool
  keys : NewKeys

/-- The store that imports fill, those that fail among them. -/
def filled (posts : List Posted) : Rows :=
  posts.foldl (fun rows post =>
    after (import_pack url json pointer_error post.keys post.pack post.dry_run post.caller_id) rows) {}

end

section

variable {url : net.UrlCrate} {json : JsonCrate} {pointer_error : String → String}

theorem vetted_import_pack (hlaws : UrlLaws url) {keys : NewKeys} {p : Pack} {dry_run : Bool} {caller_id : Uuid}
    {rows : Rows} (h : AllVetted url json rows) :
    AllVetted url json (after (import_pack url json pointer_error keys p dry_run caller_id) rows) := by
  unfold import_pack
  cases hvalid : validate url json p with
  | error errors => exact h
  | ok u => exact h.import_pack hlaws hvalid

theorem vetted_filled (hlaws : UrlLaws url) (posts : List Posted) :
    AllVetted url json (filled url json pointer_error posts) := by
  have hrun : ∀ {rows : Rows}, AllVetted url json rows → AllVetted url json (posts.foldl (fun rows post =>
      after (import_pack url json pointer_error post.keys post.pack post.dry_run post.caller_id) rows) rows) := by
    intro rows hrows
    induction posts generalizing rows with
    | nil => exact hrows
    | cons post posts ih => exact ih (vetted_import_pack hlaws hrows)
  exact hrun AllVetted.empty

theorem runs_export_pack {caller_id : Uuid} {slug : String} {rows rows' : Rows} {p : Pack} :
    Runs (export_pack caller_id slug) rows p rows' ↔ rows = rows' ∧ ∃ endpoint_slug,
      convert.parse_slug slug = .ok endpoint_slug ∧ Query.Yields (· = rows) (export_endpoint caller_id endpoint_slug) p := by
  constructor
  · intro h
    obtain ⟨hexported, hrows⟩ := Prod.mk.inj h
    obtain ⟨endpoint_slug, hslug, hread⟩ := bind_eq_ok.mp hexported
    exact ⟨hrows, endpoint_slug, mapError_eq_ok.mp hslug, Query.yields_eval.mpr (mapError_eq_ok.mp hread)⟩
  · rintro ⟨rfl, endpoint_slug, hslug, hread⟩
    refine Prod.ext (bind_eq_ok.mpr ⟨endpoint_slug, mapError_eq_ok.mpr hslug, ?_⟩) rfl
    exact mapError_eq_ok.mpr (Query.yields_eval.mp hread)

/-- Whatever packs are imported, and wherever an import fails, what is exported
afterwards is a valid pack: no import of it, by anyone and into whatever is
there, is refused for what it holds. -/
theorem exports_are_valid (hlaws : UrlLaws url) (posts : List Posted) {caller_id : Uuid} {slug : String} {p : Pack}
    {rows : Rows} (h : Runs (export_pack caller_id slug) (filled url json pointer_error posts) p rows) :
    validate url json p = .ok () ∧ ∀ keys dry_run importer_id rows' errors rows'',
      (import_pack url json pointer_error keys p dry_run importer_id).run rows' ≠ (.error (.Validation errors), rows'') := by
  obtain ⟨_, endpoint_slug, _, hexport⟩ := runs_export_pack.mp h
  have hvalid := (vetted_filled hlaws posts).export_valid hexport
  refine ⟨hvalid, fun keys dry_run importer_id rows' errors rows'' himport => ?_⟩
  unfold import_pack at himport
  rw [hvalid] at himport
  have hanswer : Except.mapError (fun e : ImportError => ApiError.BadRequest e.to_string)
      ((api2mcp.pack.import_pack url pointer_error keys p dry_run importer_id).run rows').1 = .error (.Validation errors) :=
    congrArg Prod.fst himport
  cases hrun : ((api2mcp.pack.import_pack url pointer_error keys p dry_run importer_id).run rows').1 with
  | ok report =>
    rw [hrun] at hanswer
    cases hanswer
  | error e =>
    rw [hrun] at hanswer
    cases hanswer

end

/-! The pack of the examples with an endpoint that has a name for its api_call. -/

def linked_pack : Pack where
  __ := sample_pack
  endpoints := [("crm", { tag_expr := "has(crm)", write_ceiling := "read", budgets := ⟨none, none, none, none, none⟩, instructions := none
                          enabled := true, aliases := [("hello", .ApiCall "crm")], auth_providers := [] })]

def linked_endpoint : EndpointDef where
  __ := sample_endpoint
  aliases := [("hello", .ApiCall .crm)]

def linked_post : Posted := ⟨1, linked_pack, false, default⟩

theorem linked_parse : resolve.tag_expr.parse "has(crm)" = .ok (.Has ⟨.crm⟩) := by
  have hplain : resolve.tag_expr.Plain (.Has ⟨.crm⟩) := by decide
  have htext : resolve.tag_expr.to_string (.Has ⟨.crm⟩) = "has(crm)" := rfl
  rw [← htext, resolve.tag_expr.parse_to_string_plain hplain]

theorem linked_valid : validate sample_crate default linked_pack = .ok () := by
  have hbefore := validate_ok_iff.mp sample_valid
  rw [validate_ok_iff]
  simp only [validation_errors, List.append_eq_nil_iff, List.flatMap_eq_nil_iff] at hbefore ⊢
  obtain ⟨⟨⟨⟨⟨⟨hversion, hservices⟩, hcalls⟩, hscripts⟩, _⟩, htags⟩, hscan⟩ := hbefore
  refine ⟨⟨⟨⟨⟨⟨hversion, hservices⟩, hcalls⟩, hscripts⟩, fun entry hentry => ?_⟩, htags⟩, hscan⟩
  obtain rfl := List.mem_singleton.mp hentry
  refine ⟨check_slug_as_str "endpoints" .crm, ?_⟩
  simp only [validate_endpoint, linked_parse]
  rfl

theorem linked_definitions : definitions sample_crate default linked_pack 1 =
    .ok [.service sample_service, .api_call ⟨sample_call, []⟩, .endpoint linked_endpoint] := by
  have hbefore := sample_definitions default
  simp only [definitions, bind_eq_ok, pure_eq_ok] at hbefore ⊢
  obtain ⟨ss, hss, cs, hcs, ts, hts, es, hes, hall⟩ := hbefore
  refine ⟨ss, hss, cs, hcs, ts, hts, [.endpoint linked_endpoint], mapM_eq_ok.mpr (.cons ?_ .nil), ?_⟩
  · have hslug : parse_slug "crm" = .ok .crm := mapError_eq_ok.mpr (Slug.from_str_as_str .crm)
    simp only [endpoint_item, endpoint_from_pack, bind_eq_ok, pure_eq_ok]
    refine ⟨.crm, hslug, linked_endpoint, ⟨.Has ⟨.crm⟩, mapError_eq_ok.mpr linked_parse, [("hello", .ApiCall .crm)],
      mapM_eq_ok.mpr (.cons ?_ .nil), [], rfl, .Read, rfl, rfl⟩, rfl⟩
    simp only [bind_eq_ok, pure_eq_ok]
    exact ⟨_, map_eq_ok.mpr ⟨.crm, hslug, rfl⟩, rfl⟩
  · cases hes
    have hall : ss ++ cs ++ ts ++ [] = [.service sample_service, .api_call ⟨sample_call, []⟩] := hall
    rw [List.append_nil] at hall
    rw [hall]
    rfl

theorem linked_runs : ∃ report rows',
    Runs (api2mcp.pack.import_pack sample_crate default default linked_pack false 1) {} report rows' ∧
      Has rows' (.endpoint 1 .crm) := by
  have hsorted : linked_pack.Sorted := ⟨List.pairwise_singleton _ _, List.pairwise_singleton _ _, .nil, List.pairwise_singleton _ _⟩
  obtain ⟨hdistinct, hnamed⟩ := definitions_spec hsorted linked_definitions
  have hwf := fun d hd => (hnamed d hd).1
  have hputs : ∃ founds rows', PutsAll default founds _ {} rows' :=
    (PutsAll.exists_iff Intact.empty hwf hdistinct).mpr ⟨?_, ?_⟩
  · obtain ⟨founds, rows', hputs⟩ := hputs
    obtain ⟨report, hruns⟩ := exists_runs_import_pack linked_definitions hputs
    refine ⟨report, rows', hruns, (hputs.has_iff Intact.empty hwf _).mpr (.inl ⟨.endpoint linked_endpoint, ?_, rfl⟩)⟩
    simp
  · simp only [List.forall_mem_cons]
    refine ⟨⟨trivial, trivial, trivial⟩, ⟨⟨rfl, fun p hp => absurd hp List.not_mem_nil, .nil⟩, trivial,
      fun c hc => absurd hc List.not_mem_nil⟩, ⟨List.pairwise_singleton _ _, fun slug hslug => absurd hslug List.not_mem_nil,
      trivial⟩, fun d hd => absurd hd List.not_mem_nil⟩
  · exact ⟨fun key hkey => absurd hkey List.not_mem_nil, fun key hkey => .inl (List.mem_singleton.mp hkey),
      fun key hkey => absurd hkey List.not_mem_nil, trivial⟩

theorem linked_laws : UrlLaws sample_crate where
  reparse h := ⟨_, rfl, by cases h; rfl⟩
  origin h _ := ⟨_, rfl, by cases h; rfl⟩

theorem linked_exported : ∃ p rows, Runs (export_pack 1 "crm") (filled sample_crate default default [linked_post]) p rows ∧
    validate sample_crate default p = .ok () := by
  obtain ⟨report, rows', hruns, x, hx, hkey⟩ := linked_runs
  have hfilled : filled sample_crate default default [linked_post] = rows' := by
    change after (import_pack sample_crate default default default linked_pack false 1) {} = rows'
    unfold import_pack
    rw [linked_valid]
    exact hruns.after
  have hvetted := hfilled ▸ @vetted_filled sample_crate default default linked_laws [linked_post]
  cases x with
  | endpoint e =>
    obtain ⟨howner, hslug⟩ := Key.endpoint.inj hkey
    obtain ⟨p, hcarries⟩ := exists_carries hvetted.intact hvetted.linked e
    have hexport : Runs (export_pack 1 "crm") (filled sample_crate default default [linked_post]) p rows' := by
      rw [hfilled]
      refine runs_export_pack.mpr ⟨rfl, .crm, mapError_eq_ok.mpr (Slug.from_str_as_str .crm), ?_⟩
      exact (yields_export_endpoint hvetted.intact hvetted.linked).mpr ⟨e, hx, howner, hslug, hcarries⟩
    exact ⟨p, rows', hexport, (exports_are_valid linked_laws [linked_post] hexport).1⟩
  | _ => cases hkey

end api2mcp.server.api.packs
