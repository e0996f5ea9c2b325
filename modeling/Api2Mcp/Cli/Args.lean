import Api2Mcp.Runtime.Dispatch
import Api2Mcp.Schema.Bound
import Api2Mcp.Script.Serde

namespace api2mcp.cli

open btree serde_json
open api2mcp.model api2mcp.resolve api2mcp.schema

/-- `str::split_once` at the first `=`. -/
def split_once (s : String) : Option (String × String) :=
  match s.toList.dropWhile (· ≠ '=') with
  | [] => none
  | _ :: rest => some (String.ofList (s.toList.takeWhile (· ≠ '=')), String.ofList rest)

section

variable (crate : TextCrate) (values : ValueCrate)

/-- What a value is taken for before its param is known. -/
def guess (v : String) : Value :=
  match from_str crate v with
  | .ok value => value
  | .error _ => .string v

def parse_arg (out : Map) (p : String) : Except String Map :=
  match split_once p with
  | none => .error ("--arg must be KEY=VALUE, got " ++ fmt.debug p)
  | some (k, v) => .ok (Map.insert k (guess crate v) out)

def parse_args (pairs : List String) : Except String Map := pairs.foldlM (parse_arg crate) []

/-- The text of a number or a boolean. -/
def restated : Value → Option String
  | .number n => some (n.to_string values)
  | .bool b => some (if b then "true" else "false")
  | _ => none

def retype_arg (args : Map) (p : Param) : Map :=
  if p.ty ≠ .String then args
  else match (Map.get p.name args).bind (restated values) with
    | some text => Map.insert p.name (.string text) args
    | none => args

def retype_args_for_params (params : List Param) (args : Map) : Map :=
  params.foldl (retype_arg values) args

/-- What `call`, for an api_call, and `script run`, for a script, bind of the
arguments. -/
def bind_tool (plan : EndpointPlan) (tool : PlannedTool) (args : Map) :
    Option (Except ValidationError (BTreeMap String Value)) :=
  match tool.target with
  | .ApiCall slug => (plan.calls.get slug).map fun planned =>
      bind_args planned.api_call.params
        (.object (retype_args_for_params values planned.api_call.params args))
  | .Script slug => (plan.scripts.get slug).map fun script =>
      bind_args script.params (.object (retype_args_for_params values script.params args))

end

/-- The params of a tool. -/
def params_of (plan : EndpointPlan) (tool : PlannedTool) : Option (List Param) :=
  match tool.target with
  | .ApiCall slug => (plan.calls.get slug).map (·.api_call.params)
  | .Script slug => (plan.scripts.get slug).map (·.params)

section

variable {crate : TextCrate} {values : ValueCrate}

theorem bind_tool_eq {plan : EndpointPlan} {tool : PlannedTool} {params : List Param}
    (hparams : params_of plan tool = some params) (args : Map) :
    bind_tool values plan tool args =
      some (bind_args params (.object (retype_args_for_params values params args))) := by
  unfold params_of at hparams
  unfold bind_tool
  split at hparams
  · obtain ⟨planned, hplanned, rfl⟩ := Option.map_eq_some_iff.mp hparams
    rw [hplanned]
    rfl
  · obtain ⟨script, hscript, rfl⟩ := Option.map_eq_some_iff.mp hparams
    rw [hscript]
    rfl

/-! A pair is split at the first `=`. -/

theorem split_once_name {name : String} (hname : '=' ∉ name.toList) (v : String) :
    split_once (name ++ "=" ++ v) = some (name, v) := by
  have hkeep : ∀ c ∈ name.toList, (decide (c ≠ '=')) = true := by
    intro c hc
    rw [decide_eq_true_eq]
    rintro rfl
    exact hname hc
  have hchars : (name ++ "=" ++ v).toList = name.toList ++ '=' :: v.toList := by simp
  unfold split_once
  rw [hchars, List.dropWhile_append_of_pos hkeep, List.takeWhile_append_of_pos hkeep]
  simp

theorem notMem_of_split_once {p k v : String} (h : split_once p = some (k, v)) : '=' ∉ k.toList := by
  unfold split_once at h
  split at h
  · cases h
  · rename_i c rest _
    have hk : String.ofList (p.toList.takeWhile (· ≠ '=')) = k := congrArg Prod.fst (Option.some.inj h)
    rw [← hk, String.toList_ofList]
    intro hmem
    have hall := List.all_eq_true.mp (List.all_takeWhile) _ hmem
    simp at hall

/-! The last pair of a name counts. -/

/-- What a pair leaves under a name. -/
def given_arg (crate : TextCrate) (name : String) (found : Option Value) (p : String) : Option Value :=
  match split_once p with
  | some (k, v) => if k = name then some (guess crate v) else found
  | none => found

theorem get_parse_arg (name : String) {p : String} {before out : Map}
    (h : parse_arg crate before p = .ok out) :
    Map.get name out = given_arg crate name (Map.get name before) p := by
  unfold parse_arg at h
  unfold given_arg
  cases hsplit : split_once p with
  | none =>
    rw [hsplit] at h
    cases h
  | some pair =>
    rw [hsplit] at h
    obtain rfl := Except.ok.inj h
    simp only [Map.get_insert, eq_comm]

theorem get_parse_args (name : String) {pairs : List String} {before out : Map}
    (h : pairs.foldlM (parse_arg crate) before = .ok out) :
    Map.get name out = pairs.foldl (given_arg crate name) (Map.get name before) := by
  induction pairs generalizing before with
  | nil =>
    obtain rfl := Except.ok.inj h
    rfl
  | cons p pairs ih =>
    rw [List.foldlM_cons, except.bind_eq_ok] at h
    obtain ⟨mid, hmid, hrest⟩ := h
    rw [ih hrest, get_parse_arg name hmid, List.foldl_cons]

theorem given_of_unnamed {name : String} {pairs : List String}
    (hnamed : ∀ p ∈ pairs, ∀ k v, split_once p = some (k, v) → k ≠ name) (found : Option Value) :
    pairs.foldl (given_arg crate name) found = found := by
  induction pairs generalizing found with
  | nil => rfl
  | cons p pairs ih =>
    obtain ⟨hp, hpairs⟩ := List.forall_mem_cons.mp hnamed
    have hsame : given_arg crate name found p = found := by
      unfold given_arg
      split
      · rename_i k v hsplit
        exact if_neg (hp k v hsplit)
      · rfl
    rw [List.foldl_cons, hsame, ih hpairs]

/-- A param is given what its last pair says; one whose name has a `=` is given
nothing. -/
theorem get_of_pairs {name v : String} {before after : List String} {obj : Map}
    (hparse : parse_args crate (before ++ (name ++ "=" ++ v) :: after) = .ok obj)
    (hlast : ∀ p ∈ after, ∀ k w, split_once p = some (k, w) → k ≠ name) :
    Map.get name obj = if '=' ∈ name.toList then none else some (guess crate v) := by
  rw [get_parse_args name hparse]
  split
  · rename_i hname
    refine given_of_unnamed (fun p _ k w hsplit => ?_) _
    rintro rfl
    exact notMem_of_split_once hsplit hname
  · rename_i hname
    have hgiven : ∀ found, given_arg crate name found (name ++ "=" ++ v) = some (guess crate v) := by
      intro found
      unfold given_arg
      rw [split_once_name hname]
      exact if_pos rfl
    rw [List.foldl_append, List.foldl_cons, hgiven, given_of_unnamed hlast]

/-! Retyping looks at string params only. -/

/-- A value as a string param is given it. -/
def restate (values : ValueCrate) (value : Value) : Value :=
  match restated values value with
  | some text => .string text
  | none => value

theorem restate_restate (value : Value) : restate values (restate values value) = restate values value := by
  cases value <;> rfl

theorem get_retype_arg (name : String) (args : Map) (p : Param) :
    Map.get name (retype_arg values args p) =
      if p.ty = .String ∧ p.name = name then (Map.get name args).map (restate values)
      else Map.get name args := by
  unfold retype_arg
  by_cases hty : p.ty = .String
  · rw [if_neg (not_not.mpr hty)]
    by_cases hname : p.name = name
    · subst hname
      rw [if_pos ⟨hty, rfl⟩]
      cases hget : Map.get p.name args with
      | none => simpa using hget
      | some value =>
        rw [Option.bind_some, Option.map_some]
        unfold restate
        cases hrestated : restated values value with
        | none => simpa using hget
        | some text => simp [Map.get_insert]
    · rw [if_neg fun h => hname h.2]
      split
      · rw [Map.get_insert, if_neg (Ne.symm hname)]
      · rfl
  · rw [if_pos hty, if_neg fun h => hty h.1]

theorem get_retype_args (params : List Param) (name : String) (args : Map) :
    Map.get name (retype_args_for_params values params args) =
      if ∃ p ∈ params, p.ty = .String ∧ p.name = name then (Map.get name args).map (restate values)
      else Map.get name args := by
  induction params generalizing args with
  | nil => simp [retype_args_for_params]
  | cons p params ih =>
    have hrest := ih (retype_arg values args p)
    unfold retype_args_for_params at hrest ⊢
    rw [List.foldl_cons, hrest, get_retype_arg]
    by_cases hp : p.ty = .String ∧ p.name = name
    · have htwice : restate values ∘ restate values = restate values := funext restate_restate
      have hsome : ∃ q ∈ p :: params, q.ty = .String ∧ q.name = name := ⟨p, List.mem_cons_self, hp⟩
      rw [if_pos hp, if_pos hsome, Option.map_map, htwice, ite_self]
    · rw [if_neg hp]
      have hiff : (∃ q ∈ p :: params, q.ty = .String ∧ q.name = name) ↔
          ∃ q ∈ params, q.ty = .String ∧ q.name = name := by simp [hp]
      simp only [hiff]

end

/-- The texts that are printed as they are read: those that are no JSON, and the
numbers and booleans that are spelled as they are printed. (A JSON string is
never its own text, for its quotes.) -/
def Kept (crate : TextCrate) (values : ValueCrate) (v : String) : Prop :=
  match from_str crate v with
  | .error _ => True
  | .ok (.number n) => n.to_string values = v
  | .ok (.bool b) => (if b then "true" else "false") = v
  | .ok (.string s) => s = v
  | .ok _ => False

/-- A param that is fixed has its own value, and a name with a `=` cannot be
given one; any other string param takes the texts that are kept, of its enum. -/
def TakesVerbatim (crate : TextCrate) (values : ValueCrate) (p : Param) (v : String) : Prop :=
  match p.fixed with
  | some fixed => fixed = .string v
  | none =>
    if '=' ∈ p.name.toList then p.default = some (.string v)
    else Kept crate values v ∧ InEnum p (.string v)

/-- Nothing else keeps the arguments from being bound: every other param takes
what it is given, and every name is a param's. -/
structure OthersFit (params : List Param) (args : Map) (p : Param) : Prop where
  takes : ∀ q ∈ params, q ≠ p → Takes args q
  known : ∀ field ∈ args, ∃ q ∈ params, q.name = field.1

section

variable {crate : TextCrate} {values : ValueCrate} {p : Param} {v : String}

theorem restate_guess_iff : restate values (guess crate v) = .string v ↔ Kept crate values v := by
  unfold guess Kept
  cases hread : from_str crate v with
  | error e => exact iff_of_true rfl trivial
  | ok value =>
    cases value with
    | null => exact iff_of_false (by rintro ⟨⟩) id
    | bool b => exact Value.string.injEq .. ▸ Iff.rfl
    | number n => exact Value.string.injEq .. ▸ Iff.rfl
    | string s => exact Value.string.injEq .. ▸ Iff.rfl
    | array items => exact iff_of_false (by rintro ⟨⟩) id
    | object fields => exact iff_of_false (by rintro ⟨⟩) id

/-- An integer that the crate holds is kept in its one canonical spelling. -/
theorem kept_integer {negative : Bool} {magnitude : Nat}
    (hread : crate.read v = .ok (.integer negative magnitude))
    (hin : ¬Literal.OutOfRange negative magnitude) :
    Kept crate values v ↔ v = toString (Literal.signed negative magnitude) := by
  have hvalue : from_str crate v = .ok (.number (Literal.number crate.to_f64 negative magnitude)) := by
    unfold from_str
    rw [hread]
    rfl
  have htext : (Literal.number crate.to_f64 negative magnitude).to_string values =
      toString (Literal.signed negative magnitude) := by
    unfold Literal.number
    rw [if_neg hin]
    cases negative with
    | false =>
      rw [Literal.out_of_range_positive, Nat.not_le] at hin
      show Nat.repr (BitVec.ofNat 64 magnitude).toNat = Nat.repr magnitude
      rw [BitVec.toNat_ofNat, Nat.mod_eq_of_lt hin]
    | true =>
      rw [Literal.out_of_range_negative, not_or, Nat.not_lt] at hin
      show toString (BitVec.ofInt 64 (-(magnitude : Int))).toInt = toString (-(magnitude : Int))
      rw [BitVec.toInt_ofInt_eq_self (by decide) (by omega) (by omega)]
  unfold Kept
  rw [hvalue]
  dsimp only
  rw [htext, eq_comm]

theorem takes_verbatim_of_free (hfixed : p.fixed = none) (hname : '=' ∉ p.name.toList) :
    TakesVerbatim crate values p v ↔ Kept crate values v ∧ InEnum p (.string v) := by
  unfold TakesVerbatim
  rw [hfixed]
  dsimp only
  rw [if_neg hname]

theorem coerce_string_eq_ok {value coerced : Value} :
    coerce .String value = .ok coerced ↔ ∃ s, value = .string s ∧ coerced = .string s := by
  cases value with
  | string s => simp [coerce, eq_comm]
  | null | bool | number | array | object => simp [coerce]

theorem takes_verbatim_iff {args : Map} (hty : p.ty = .String)
    (hget : Map.get p.name args =
      if '=' ∈ p.name.toList then none else some (restate values (guess crate v))) :
    Takes args p ∧ chosen args p = some (.string v) ↔ TakesVerbatim crate values p v := by
  have hvalue : Takes args p ∧ chosen args p = some (.string v) ↔
      bound_value args p = .ok (some (.string v)) := by
    rw [bound_value_iff, eq_comm (a := some (Value.string v))]
  rw [hvalue]
  unfold bound_value TakesVerbatim
  cases p.fixed with
  | some fixed => simp
  | none =>
    rw [hget]
    by_cases hname : '=' ∈ p.name.toList
    · rw [if_pos hname, if_pos hname]
      cases p.default with
      | some default => simp
      | none => cases p.required <;> simp
    · rw [if_neg hname, if_neg hname, ← restate_guess_iff, hty]
      dsimp only
      cases hcoerce : coerce .String (restate values (guess crate v)) with
      | error got =>
        refine iff_of_false (by rintro ⟨⟩) fun h => ?_
        rw [h.1] at hcoerce
        cases hcoerce
      | ok coerced =>
        obtain ⟨s, hs, rfl⟩ := coerce_string_eq_ok.mp hcoerce
        rw [hs]
        dsimp only
        split
        · rename_i hrefused
          refine iff_of_false (by rintro ⟨⟩) fun h => ?_
          rw [h.1] at hrefused
          exact any_iff_inEnum.mp hrefused h.2
        · rename_i hallowed
          have henum : InEnum p (.string s) := not_not.mp fun hout => hallowed (any_iff_inEnum.mpr hout)
          rw [Except.ok.injEq, Option.some.injEq]
          constructor
          · intro hsame
            rw [← hsame]
            exact ⟨rfl, henum⟩
          · exact And.left

/-- The run binds a string param to the very text that it is last given exactly
if the other arguments fit, and the param takes the text verbatim. -/
theorem bound_verbatim_iff {plan : EndpointPlan} {tool : PlannedTool} {params : List Param}
    {before after : List String} {args : Map} (hparams : params_of plan tool = some params)
    (hdistinct : Distinct params) (hp : p ∈ params) (hty : p.ty = .String)
    (hparse : parse_args crate (before ++ (p.name ++ "=" ++ v) :: after) = .ok args)
    (hlast : ∀ pair ∈ after, ∀ k w, split_once pair = some (k, w) → k ≠ p.name) :
    (∃ bound, bind_tool values plan tool args = some (.ok bound) ∧
        bound.get p.name = some (.string v)) ↔
      OthersFit params (retype_args_for_params values params args) p ∧
        TakesVerbatim crate values p v := by
  have hget : Map.get p.name (retype_args_for_params values params args) =
      if '=' ∈ p.name.toList then none else some (restate values (guess crate v)) := by
    have hstring : ∃ q ∈ params, q.ty = .String ∧ q.name = p.name := ⟨p, hp, hty, rfl⟩
    rw [get_retype_args, if_pos hstring, get_of_pairs hparse hlast]
    split <;> rfl
  rw [← takes_verbatim_iff hty hget, bind_tool_eq hparams]
  generalize retype_args_for_params values params args = obj
  constructor
  · rintro ⟨bound, hbound, hverbatim⟩
    have hargs := Option.some.inj hbound
    obtain ⟨hfold, hknown⟩ := bind_args_eq_ok.mp hargs
    have htakes := (bind_params_iff hdistinct).mp ⟨bound, hfold⟩
    have hchosen := (get_of_bind_args hdistinct hargs).1 p hp
    exact ⟨⟨fun q hq _ => htakes q hq, hknown⟩, htakes p hp, by rw [← hchosen, hverbatim]⟩
  · rintro ⟨⟨hothers, hknown⟩, htakes, hchosen⟩
    have hall : ∀ q ∈ params, Takes obj q := by
      intro q hq
      by_cases hsame : q = p
      · rw [hsame]
        exact htakes
      · exact hothers q hq hsame
    obtain ⟨bound, hfold⟩ := (bind_params_iff hdistinct).mpr hall
    have hargs := bind_args_eq_ok.mpr ⟨hfold, hknown⟩
    refine ⟨bound, by rw [hargs], ?_⟩
    rw [(get_of_bind_args hdistinct hargs).1 p hp, hchosen]

end

/-! A param of the endpoint's one tool, on the command line. -/

def search_tool : PlannedTool where
  name := "ping"
  input_schema := .object []
  target := .ApiCall runtime.dispatch.sample_slug
  budgets := {}

def search_call : PlannedApiCall :=
  { runtime.dispatch.sample_planned with
    api_call := { runtime.dispatch.sample_call with params := [search_param (.string "all")] } }

def search_plan : EndpointPlan :=
  { runtime.dispatch.sample_plan with
    tools := [search_tool], calls := [(runtime.dispatch.sample_slug, search_call)] }

/-- Reads an integer, and a number with an exponent. -/
def sample_text : TextCrate where
  read s :=
    if s = "3" then .ok (.integer false 3)
    else if s = "1e3" then .ok (.real 0x408F400000000000#64)
    else .error ⟨1, 1, "expected value"⟩
  to_f64 _ _ := 0

/-- Prints the double that is one thousand. -/
def sample_values : ValueCrate :=
  { (default : ValueCrate) with
    f64_to_string := fun bits => if bits = 0x408F400000000000#64 then "1000.0" else "" }

/-- A text that looks like an integer is bound as it is. -/
theorem integer_verbatim : ∃ args bound, parse_args sample_text ["q=3"] = .ok args ∧
    bind_tool sample_values search_plan search_tool args = some (.ok bound) ∧
    bound.get "q" = some (.string "3") := by
  have hparse : parse_args sample_text ([] ++ ("q" ++ "=" ++ "3") :: []) =
      .ok [("q", .number (.PosInt 3))] := rfl
  have hiff := @bound_verbatim_iff _ sample_values (search_param (.string "all")) "3" search_plan search_tool
    _ [] [] _ rfl (List.nodup_singleton _) (List.mem_singleton_self _) rfl hparse
    (fun _ h => (List.not_mem_nil h).elim)
  have hfits : OthersFit [search_param (.string "all")]
      (retype_args_for_params sample_values [search_param (.string "all")] [("q", .number (.PosInt 3))])
      (search_param (.string "all")) := by
    constructor
    · intro q hq hne
      exact absurd (List.mem_singleton.mp hq) hne
    · intro field hfield
      obtain rfl := List.mem_singleton.mp hfield
      exact ⟨_, List.mem_singleton_self _, rfl⟩
  have htakes : TakesVerbatim sample_text sample_values (search_param (.string "all")) "3" := by
    have hname : '=' ∉ "q".toList := by decide
    refine (takes_verbatim_of_free rfl hname).mpr ⟨rfl, fun allowed hallowed => ?_⟩
    cases hallowed
  obtain ⟨bound, hbound, hget⟩ := hiff.mpr ⟨hfits, htakes⟩
  exact ⟨_, bound, hparse, hbound, hget⟩

/-- A text that is a number of another spelling is bound as it is printed. -/
theorem exponent_altered : ∃ args bound, parse_args sample_text ["q=1e3"] = .ok args ∧
    bind_tool sample_values search_plan search_tool args = some (.ok bound) ∧
    bound.get "q" = some (.string "1000.0") := by
  refine ⟨[("q", .number (.Float 0x408F400000000000#64))], [("q", .string "1000.0")], rfl, rfl, rfl⟩

end api2mcp.cli
