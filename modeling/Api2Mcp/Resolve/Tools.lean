import Api2Mcp.Collections.Pointwise
import Api2Mcp.Resolve.Closed

namespace api2mcp.resolve

open btree concurrent relational
open api2mcp.entity api2mcp.model api2mcp.http api2mcp.store

/-- A time that is in whole milliseconds. -/
def WholeMillis (time : Option Nat) : Prop := ∀ d ∈ time, d % 1000 = 0

theorem wholeMillis_fold_opt {a b : Option Nat} (ha : WholeMillis a) (hb : WholeMillis b) :
    WholeMillis (fold_opt a b) := by
  intro d hd
  cases a with
  | none =>
    cases b with
    | none => cases hd
    | some y => exact hb d hd
  | some x =>
    cases b with
    | none => exact ha d hd
    | some y =>
      obtain rfl : min x y = d := Option.some.inj hd
      obtain hmin | hmin := min_choice x y
      · rw [hmin]
        exact ha x rfl
      · rw [hmin]
        exact hb y rfl

/-- What a tool of a plan comes to is of the plan, and its time is in whole
milliseconds. -/
structure BuiltTool (plan : EndpointPlan) (tool : PlannedTool) : Prop where
  target : match tool.target with
    | .ApiCall slug => ∃ planned, plan.calls.get slug = some planned
    | .Script slug => ∃ script, plan.scripts.get slug = some script
  whole : WholeMillis tool.budgets.wall_clock

section

variable {json : serde_json.JsonCrate} {sha256_hex : String → String} {P : Rows → Prop}

theorem wholeMillis_map (ms : Option Nat) : WholeMillis (ms.map (· * 1000)) := by
  intro d hd
  obtain ⟨n, _, rfl⟩ := Option.map_eq_some_iff.mp hd
  exact Nat.mul_mod_left n 1000

theorem wholeMillis_of_endpoint {owner_id : Uuid} {slug : Slug} {definition : EndpointDef}
    (h : Query.Yields P (endpoint.get owner_id slug) (some definition)) :
    WholeMillis definition.budgets.wall_clock := by
  simp only [endpoint.get, select, Query.yields_bind, Query.yields_select] at h
  obtain ⟨row, _, h⟩ := h
  cases row with
  | none => cases Query.yields_pure.mp h
  | some row =>
    simp only [endpoint.assemble, Query.yields_bind, Query.yields_pure, Option.some.injEq] at h
    obtain ⟨_, ⟨_, _, _, _, rfl⟩, rfl⟩ := h
    exact wholeMillis_map _

theorem wholeMillis_of_scripts {owner_id : Uuid} {all : List script.TaggedScript}
    (h : Query.Yields P (script.list_all owner_id) all) {tagged : script.TaggedScript} (htagged : tagged ∈ all) :
    WholeMillis tagged.script.budgets.wall_clock := by
  simp only [script.list_all, select, Query.yields_bind, Query.yields_select, Query.yields_mapM] at h
  obtain ⟨rows, _, hall⟩ := h
  obtain ⟨row, _, hrow⟩ := pointwise.exists_left hall htagged
  simp only [script.assemble, Query.yields_bind, Query.yields_pure] at hrow
  obtain ⟨_, _, _, _, _, _, rfl⟩ := hrow
  intro d hd
  obtain ⟨ms, _, rfl⟩ := Option.map_eq_some_iff.mp hd
  exact Nat.mul_mod_left ms.toNat 1000

theorem builtTool_of_build_plan {owner_id : Uuid} {slug : Slug} {plan : EndpointPlan}
    (h : Query.Yields P (build_plan json sha256_hex owner_id slug) plan) {tool : PlannedTool}
    (htool : tool ∈ plan.tools) : BuiltTool plan tool := by
  simp only [build_plan, Query.yields_bind, yields_read, yields_some_or, yields_check,
    Query.yields_pure] at h
  obtain ⟨_, hendpoint, definition, rfl, _, _, all_scripts, hscripts, calls, _, _, _, ⟨⟩, _, ⟨⟩, _, tools, htools,
    rfl⟩ := h
  have hbudgets := wholeMillis_of_endpoint hendpoint
  obtain ⟨⟨alias_by_target, hnamed⟩, _⟩ := build_tools_ok htools
  obtain htool | htool := List.mem_append.mp ((hnamed tool).mp htool)
  · obtain ⟨kv, hkv, rfl⟩ := List.mem_map.mp htool
    exact { target := BTreeMap.get_of_mem hkv, whole := hbudgets }
  · obtain ⟨kv, hkv, rfl⟩ := List.mem_map.mp htool
    obtain ⟨tagged, htagged, _, hscript, _⟩ := (selected_scripts_ok definition.tag_expr all_scripts).1 kv hkv
    have hwhole := wholeMillis_of_scripts hscripts htagged
    rw [hscript] at hwhole
    exact { target := BTreeMap.get_of_mem hkv, whole := wholeMillis_fold_opt hbudgets hwhole }

end

end api2mcp.resolve
