import Api2Mcp.Collections.Sorted
import Api2Mcp.Runtime.Replay
import Api2Mcp.Runtime.Recorder

namespace api2mcp.runtime.snapshot

open btree serde_json jsonptr
open api2mcp.model api2mcp.resolve api2mcp.runtime.replay

theorem of_nat_inj {m n : Nat} (hm : m < 2 ^ 64) (hn : n < 2 ^ 64) (h : Value.of_nat m = Value.of_nat n) :
    m = n := by
  have hbits : BitVec.ofNat 64 m = BitVec.ofNat 64 n := by
    simpa [Value.of_nat] using h
  have hnat := congrArg BitVec.toNat hbits
  rwa [BitVec.toNat_ofNat, BitVec.toNat_ofNat, Nat.mod_eq_of_lt hm, Nat.mod_eq_of_lt hn] at hnat

/-- What is written as itself or as null. -/
theorem of_option_inj {α : Type} {f : α → Value} (hnull : ∀ a, f a ≠ .null) {o o' : Option α}
    (hinj : ∀ a ∈ o, ∀ a' ∈ o', f a = f a' → a = a') (h : Value.of_option f o = Value.of_option f o') :
    o = o' := by
  cases o with
  | none =>
    cases o' with
    | none => rfl
    | some a' => exact absurd h.symm (hnull a')
  | some a =>
    cases o' with
    | none => exact absurd h (hnull a)
    | some a' => rw [hinj a rfl a' rfl h]

/-- A value that is written as null is told from none by whether it is there. -/
theorem getD_null_inj {o o' : Option Value} (hsome : o.isSome = o'.isSome) (h : o.getD .null = o'.getD .null) :
    o = o' := by
  cases o with
  | none =>
    cases o' with
    | none => rfl
    | some a' => cases hsome
  | some a =>
    cases o' with
    | none => cases hsome
    | some a' => exact congrArg some h

theorem param_type_str_inj {t t' : ParamType} (h : digest.param_type_str t = digest.param_type_str t') :
    t = t' := by
  cases t <;> cases t' <;> first | rfl | exact absurd h (by decide)

theorem to_string_inj {p p' : PointerBuf} (h : p.to_string = p'.to_string) : p = p' := by
  have hparse := congrArg PointerBuf.parse h
  rw [PointerBuf.parse_to_string, PointerBuf.parse_to_string] at hparse
  exact Option.some.inj hparse

theorem param_location_json_inj {l l' : ParamLocation}
    (h : digest.param_location_json l = digest.param_location_json l') : l = l' := by
  have hbody : ∀ p, ∃ fields, digest.param_location_json (.Body p) = .object fields := fun p => ⟨_, rfl⟩
  cases l with
  | Body p =>
    cases l' with
    | Body p' =>
      have hpointer := congrArg (Value.get "body") h
      simp only [digest.param_location_json, Value.get_json, List.foldl_cons, List.foldl_nil, if_true,
        Option.some.injEq, Value.string.injEq] at hpointer
      rw [to_string_inj hpointer]
    | _ => cases h
  | _ =>
    cases l' with
    | Body p' => cases h
    | _ => first | rfl | exact absurd h (by simp [digest.param_location_json])

/-- Which of a param's values are there, of those it has a use for. -/
def param_optional (p : Param) : Bool × Bool := (p.fixed.isSome, p.fixed.isNone && p.default.isSome)

/-- A param as a snapshot has it, but for whether a value of null is there. -/
theorem sameParam_of_json {p p' : Param} (h : digest.param_json p = digest.param_json p')
    (hoptional : param_optional p = param_optional p') : SameParam p p' := by
  rw [param_optional, param_optional, Prod.mk.injEq] at hoptional
  obtain ⟨hfixed, hdefault⟩ := hoptional
  have hget : ∀ key, (digest.param_json p).get key = (digest.param_json p').get key := fun _ => by rw [h]
  have hname := hget "name"
  have hlocation := hget "location"
  have hty := hget "ty"
  have hrequired := hget "required"
  have hdefaults := hget "default"
  have hfixeds := hget "fixed"
  have henum := hget "enum_values"
  simp [digest.param_json, Value.get_json] at hname hlocation hty hrequired hdefaults hfixeds henum
  have harray : ∀ items, Value.array items ≠ .null := fun _ => nofun
  exact {
    name := hname
    location := param_location_json_inj hlocation
    ty := param_type_str_inj hty
    required := hrequired
    fixed := getD_null_inj hfixed hfixeds
    default := by
      intro hnone
      rw [getD_null_inj hfixed hfixeds] at hnone hdefault
      rw [hnone] at hdefault
      exact getD_null_inj hdefault hdefaults
    enum_values := of_option_inj harray (fun _ _ _ _ h => Value.array.inj h) henum }

theorem map_inj {α : Type} {f : α → Value} (hinj : ∀ a a', f a = f a' → a = a') {xs ys : List α}
    (h : xs.map f = ys.map f) : xs = ys := List.map_injective_iff.mpr (fun a a' => hinj a a') h

theorem string_map_json_inj {map map' : BTreeMap String String} (hmap : BTreeMap.Sorted map)
    (hmap' : BTreeMap.Sorted map') (h : digest.string_map_json map = digest.string_map_json map') :
    map = map' := by
  have hwritten : ∀ {map : BTreeMap String String}, BTreeMap.Sorted map →
      digest.string_map_json map = .object (map.map fun kv => (kv.1, .string kv.2)) := by
    intro map hmap
    exact Value.json_of_sorted (List.pairwise_map.mpr (List.pairwise_map.mp hmap))
  rw [hwritten hmap, hwritten hmap', Value.object.injEq] at h
  refine List.map_injective_iff.mpr (fun kv kv' hkv => ?_) h
  rw [Prod.mk.injEq, Value.string.injEq] at hkv
  exact Prod.ext hkv.1 hkv.2

theorem method_str_inj {m m' : net.Method} (hm : net.Method.from_bytes (digest.method_str m) = some m)
    (hm' : net.Method.from_bytes (digest.method_str m') = some m')
    (h : digest.method_str m = digest.method_str m') : m = m' := by
  rw [h, hm'] at hm
  exact (Option.some.inj hm).symm

theorem projection_json_inj {p p' : Projection} (h : digest.projection_json p = digest.projection_json p') :
    p = p' := by
  have hfields := congrArg (Value.get "fields") h
  simp only [digest.projection_json, Value.get_json, List.foldl_cons, List.foldl_nil, if_true,
    Option.some.injEq, Value.array.injEq] at hfields
  obtain ⟨fields⟩ := p
  obtain ⟨fields'⟩ := p'
  congr 1
  refine map_inj (fun f f' hf => ?_) hfields
  have hname := congrArg (Value.get "name") hf
  have hpath := congrArg (Value.get "path") hf
  have hcardinality := congrArg (Value.get "cardinality") hf
  have hcoerce := congrArg (Value.get "coerce") hf
  simp [Value.get_json] at hname hpath hcardinality hcoerce
  have hstring : ∀ t, (Value.string ∘ digest.param_type_str) t ≠ .null := fun _ => nofun
  obtain ⟨name, path, cardinality, coerce⟩ := f
  obtain ⟨name', path', cardinality', coerce'⟩ := f'
  have hcoerced := of_option_inj hstring
    (fun t _ t' _ ht => param_type_str_inj (Value.string.inj ht)) hcoerce
  have hone : cardinality = cardinality' := by
    cases cardinality <;> cases cardinality' <;> first | rfl | simp at hcardinality
  rw [ProjectionField.mk.injEq]
  exact ⟨hname, hpath, hone, hcoerced⟩

theorem pagination_json_inj {p p' : Pagination} (h : digest.pagination_json p = digest.pagination_json p') :
    p = p' := by
  have hkind := congrArg (Value.get "kind") h
  have hnext := congrArg (Value.get "next_cursor_path") h
  have hparam := congrArg (Value.get "query_param") h
  cases p <;> cases p'
  · rfl
  · simp [digest.pagination_json, Value.get_json] at hkind
  · simp [digest.pagination_json, Value.get_json] at hkind
  · simp [digest.pagination_json, Value.get_json] at hnext hparam
    rw [to_string_inj hnext, hparam]

/-- What the types of an api_call say of it: a method is one that reads as
itself, a map is in order, a size fits its word. -/
structure TypedCall (c : ApiCall) : Prop where
  method : net.Method.from_bytes (digest.method_str c.method) = some c.method
  query_fixed : BTreeMap.Sorted c.query_fixed
  max_response_bytes : ∀ n ∈ c.max_response_bytes, n < 2 ^ 64

/-- What the types of a service say of it: a URL and an origin are ones that
their texts read as. -/
structure TypedService (crate : net.UrlCrate) (s : Service) : Prop where
  base_url : crate.parse s.base_url.to_string = .ok s.base_url
  origin_allowlist : ∀ o ∈ s.origin_allowlist, Origin.from_str crate o.ascii_serialization = .ok o
  default_headers : BTreeMap.Sorted s.default_headers
  timeout_ms : s.timeout_ms < 2 ^ 64
  max_concurrency : s.max_concurrency < 2 ^ 64
  rate_limit_per_min : ∀ n ∈ s.rate_limit_per_min, n < 2 ^ 64
  max_response_bytes : s.max_response_bytes < 2 ^ 64

structure TypedBudgets (b : Budgets) : Prop where
  max_calls : ∀ n ∈ b.max_calls, n < 2 ^ 64
  max_bytes : ∀ n ∈ b.max_bytes, n < 2 ^ 64
  wall_clock : ∀ d ∈ b.wall_clock, d / 1000 < 2 ^ 64
  max_pages : ∀ n ∈ b.max_pages, n < 2 ^ 64
  max_concurrency : ∀ n ∈ b.max_concurrency, n < 2 ^ 64

def param_optionals (params : List Param) : List (Bool × Bool) := params.map param_optional

/-- Which of the values that are written as null or as themselves are there. -/
def call_optionals (c : ApiCall) : Bool × List (Bool × Bool) :=
  (c.body_template.isSome, param_optionals c.params)

theorem sameParams_of_json {params params' : List Param}
    (h : params.map digest.param_json = params'.map digest.param_json)
    (hoptionals : param_optionals params = param_optionals params') :
    List.Forall₂ SameParam params params' := by
  induction params generalizing params' with
  | nil =>
    cases params' with
    | nil => exact .nil
    | cons => cases h
  | cons p params ih =>
    cases params' with
    | nil => cases h
    | cons p' params' =>
      simp only [param_optionals, List.map_cons, List.cons.injEq] at h hoptionals
      exact .cons (sameParam_of_json h.1 hoptionals.1) (ih h.2 hoptionals.2)

theorem nat_ne_null (n : Nat) : Value.of_nat n ≠ .null := nofun

/-- An api_call as a snapshot has it. -/
theorem sameCall_of_json {c c' : ApiCall} (hc : TypedCall c) (hc' : TypedCall c')
    (h : api_call_json c = api_call_json c') (hoptionals : call_optionals c = call_optionals c') :
    SameCall c c' := by
  rw [call_optionals, call_optionals, Prod.mk.injEq] at hoptionals
  have hget : ∀ key, (digest.api_call_json c).get key = (digest.api_call_json c').get key := fun key =>
    congrArg (Value.get key) h
  have hslug := hget "slug"
  have hmethod := hget "method"
  have hpath := hget "path_template"
  have hquery := hget "query_fixed"
  have hbody := hget "body_template"
  have hprojection := hget "projection"
  have hpagination := hget "pagination"
  have hmax := hget "max_response_bytes"
  have hparams := hget "params"
  simp [digest.api_call_json, Value.get_json] at hslug hmethod hpath hquery hbody hprojection
  simp [digest.api_call_json, Value.get_json] at hpagination hmax hparams
  have hobject : ∀ p, digest.projection_json p ≠ .null := fun _ => nofun
  exact {
    slug := Slug.ext_str hslug
    method := method_str_inj hc.method hc'.method hmethod
    path_template := hpath
    query_fixed := string_map_json_inj hc.query_fixed hc'.query_fixed hquery
    body_template := getD_null_inj hoptionals.1 hbody
    projection := of_option_inj hobject (fun _ _ _ _ => projection_json_inj) hprojection
    pagination := pagination_json_inj hpagination
    max_response_bytes := of_option_inj nat_ne_null
      (fun n hn n' hn' => of_nat_inj (hc.max_response_bytes n hn) (hc'.max_response_bytes n' hn')) hmax
    params := sameParams_of_json hparams hoptionals.2 }

theorem origins_inj {crate : net.UrlCrate} {os os' : List Origin}
    (hos : ∀ o ∈ os, Origin.from_str crate o.ascii_serialization = .ok o)
    (hos' : ∀ o ∈ os', Origin.from_str crate o.ascii_serialization = .ok o)
    (h : os.map (fun o => Value.string o.ascii_serialization) =
      os'.map fun o => Value.string o.ascii_serialization) : os = os' := by
  have hread : ∀ {os : List Origin}, (∀ o ∈ os, Origin.from_str crate o.ascii_serialization = .ok o) →
      (os.map fun o => Value.string o.ascii_serialization).map
        (fun text => text.as_str.map (Origin.from_str crate)) = os.map fun o => some (.ok o) := by
    intro os hos
    rw [List.map_map]
    exact List.map_congr_left fun o ho => congrArg some (hos o ho)
  have hparsed := hread hos
  rw [h, hread hos'] at hparsed
  exact (List.map_injective_iff.mpr (fun _ _ heq => Except.ok.inj (Option.some.inj heq)) hparsed).symm

/-- A service as a snapshot has it. -/
theorem sameService_of_json {crate : net.UrlCrate} {s s' : Service} (hs : TypedService crate s)
    (hs' : TypedService crate s') (h : service_json s = service_json s') : SameService s s' := by
  have hget : ∀ key, (service_json s).get key = (service_json s').get key := fun key =>
    congrArg (Value.get key) h
  have hslug := hget "slug"
  have hurl := hget "base_url"
  have horigins := hget "origin_allowlist"
  have hheaders := hget "default_headers"
  have htimeout := hget "timeout_ms"
  have hconcurrency := hget "max_concurrency"
  have hrate := hget "rate_limit_per_min"
  have hmax := hget "max_response_bytes"
  simp [service_json, Value.get_json] at hslug hurl horigins hheaders htimeout hconcurrency hrate hmax
  have hbase : s.base_url = s'.base_url := by
    have hparse := hs.base_url
    rw [hurl, hs'.base_url] at hparse
    exact (Except.ok.inj hparse).symm
  have hallowlist := origins_inj hs.origin_allowlist hs'.origin_allowlist horigins
  have hrates := of_option_inj nat_ne_null
    (fun n hn n' hn' => of_nat_inj (hs.rate_limit_per_min n hn) (hs'.rate_limit_per_min n' hn')) hrate
  obtain ⟨_, _, _, _, _, _, _, _, _⟩ := s
  obtain ⟨_, _, _, _, _, _, _, _, _⟩ := s'
  simp only [SameService, Service.mk.injEq, true_and]
  exact ⟨Slug.ext_str hslug, hbase, hallowlist,
    string_map_json_inj hs.default_headers hs'.default_headers hheaders,
    of_nat_inj hs.timeout_ms hs'.timeout_ms htimeout,
    of_nat_inj hs.max_concurrency hs'.max_concurrency hconcurrency, hrates,
    of_nat_inj hs.max_response_bytes hs'.max_response_bytes hmax⟩

/-- Budgets as a snapshot has them, where the time is in whole milliseconds. -/
theorem budgets_of_json {b b' : Budgets} (hb : TypedBudgets b) (hb' : TypedBudgets b')
    (hwhole : ∀ d ∈ b.wall_clock, d % 1000 = 0) (hwhole' : ∀ d ∈ b'.wall_clock, d % 1000 = 0)
    (h : budgets_json b = budgets_json b') : b = b' := by
  have hget : ∀ key, (digest.budgets_json b).get key = (digest.budgets_json b').get key := fun key =>
    congrArg (Value.get key) h
  have hcalls := hget "max_calls"
  have hbytes := hget "max_bytes"
  have hclock := hget "wall_clock_ms"
  have hpages := hget "max_pages"
  have hconcurrency := hget "max_concurrency"
  simp [digest.budgets_json, Value.get_json] at hcalls hbytes hclock hpages hconcurrency
  have hcount : ∀ {o o' : Option Nat}, (∀ n ∈ o, n < 2 ^ 64) → (∀ n ∈ o', n < 2 ^ 64) →
      Value.of_option Value.of_nat o = Value.of_option Value.of_nat o' → o = o' := by
    intro o o' ho ho'
    exact of_option_inj nat_ne_null fun n hn n' hn' => of_nat_inj (ho n hn) (ho' n' hn')
  have htime : b.wall_clock = b'.wall_clock := by
    refine of_option_inj (fun d => nat_ne_null (d / 1000)) (fun d hd d' hd' heq => ?_) hclock
    have hms := of_nat_inj (hb.wall_clock d hd) (hb'.wall_clock d' hd') heq
    have hd := hwhole d hd
    have hd' := hwhole' d' hd'
    rw [← Nat.div_add_mod d 1000, ← Nat.div_add_mod d' 1000, hms, hd, hd']
  obtain ⟨_, _, _, _, _⟩ := b
  obtain ⟨_, _, _, _, _⟩ := b'
  rw [Budgets.mk.injEq]
  exact ⟨hcount hb.max_calls hb'.max_calls hcalls, hcount hb.max_bytes hb'.max_bytes hbytes, htime,
    hcount hb.max_pages hb'.max_pages hpages, hcount hb.max_concurrency hb'.max_concurrency hconcurrency⟩

end api2mcp.runtime.snapshot
