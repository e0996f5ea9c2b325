import Api2Mcp.Collections.Sorted
import Api2Mcp.Control.Except
import Api2Mcp.Http.Bind
import Api2Mcp.Http.Confined
import Api2Mcp.Net.Form
import Api2Mcp.Pack.Validate

namespace api2mcp.http

open btree net interact serde_json jsonptr
open api2mcp.model

/-! What stands before the query of a URL. -/

/-- Nothing in the text ends the path of a URL. -/
def Plain (s : String) : Prop := ∀ c ∈ s.toList, c ≠ '?' ∧ c ≠ '#'

theorem Plain.append {s t : String} (hs : Plain s) (ht : Plain t) : Plain (s ++ t) := by
  intro c hc
  rw [String.toList_append] at hc
  obtain hc | hc := List.mem_append.mp hc
  · exact hs c hc
  · exact ht c hc

theorem plain_intercalate {sep : String} {parts : List String} (hsep : Plain sep)
    (hparts : ∀ part ∈ parts, Plain part) : Plain (sep.intercalate parts) := by
  induction parts with
  | nil => simp [Plain]
  | cons part rest ih =>
    cases rest with
    | nil =>
      rw [String.intercalate_singleton]
      exact hparts part (List.mem_singleton_self _)
    | cons next rest =>
      rw [String.intercalate_cons_cons]
      exact ((hparts part (List.mem_cons_self ..)).append hsep).append
        (ih fun p hp => hparts p (List.mem_cons_of_mem _ hp))

theorem plain_digitChar (n : Nat) : Nat.digitChar n ≠ '?' ∧ Nat.digitChar n ≠ '#' :=
  ⟨Nat.digitChar_ne '?' (by decide), Nat.digitChar_ne '#' (by decide)⟩

theorem plain_toDigits {b : Nat} (hb : 1 < b) (n : Nat) : Plain (String.ofList (Nat.toDigits b n)) := by
  intro c hc
  rw [String.toList_ofList] at hc
  induction n using Nat.strongRecOn with
  | ind n ih =>
    by_cases hlt : n < b
    · rw [Nat.toDigits_of_lt_base hlt] at hc
      obtain rfl := List.mem_singleton.mp hc
      exact plain_digitChar n
    · rw [Nat.toDigits_of_base_le hb (by omega)] at hc
      obtain hc | hc := List.mem_append.mp hc
      · exact ih (n / b) (Nat.div_lt_self (by omega) hb) hc
      · obtain rfl := List.mem_singleton.mp hc
        exact plain_digitChar _

theorem plain_repr (n : Nat) : Plain (Nat.repr n) := by
  rw [Nat.repr_eq_ofList_toDigits]
  exact plain_toDigits (by decide) n

theorem plain_ipv4 (ip : Ipv4Addr) : Plain (Ipv4Addr.to_string ip) := by
  refine plain_intercalate (by simp [Plain]) fun part hpart => ?_
  obtain ⟨octet, -, rfl⟩ := List.mem_map.mp hpart
  exact plain_repr _

theorem plain_groups (ip : Ipv6Addr) : Plain (Ipv6Addr.groups_text ip) := by
  have hwrite : ∀ part : List (BitVec 16), Plain (":".intercalate (part.map Ipv6Addr.hex)) := by
    intro part
    refine plain_intercalate (by simp [Plain]) fun text htext => ?_
    obtain ⟨seg, -, rfl⟩ := List.mem_map.mp htext
    exact plain_toDigits (by decide) _
  unfold Ipv6Addr.groups_text
  dsimp only
  split
  · exact hwrite _
  · exact ((hwrite _).append (by simp [Plain])).append (hwrite _)

theorem plain_ipv6 (ip : Ipv6Addr) : Plain (Ipv6Addr.to_string ip) := by
  unfold Ipv6Addr.to_string
  split
  · exact Plain.append (by simp [Plain]) (plain_ipv4 _)
  · exact plain_groups ip

/-- What the `url` crate documents of queries: a form is read back as the pairs
it was written from, and it is the query of a URL that it ends. -/
structure FormLaws (crate : UrlCrate) : Prop where
  form_parse : ∀ pairs, crate.form_parse (crate.form_serialize pairs) = pairs
  parsed_plain : ∀ text url, crate.parse text = .ok url →
    Plain url.scheme ∧ Plain url.path ∧ ∀ host, url.host_str = some host → Plain host
  query_of_parse : ∀ text pairs url, Plain text →
    crate.parse (text ++ "?" ++ crate.form_serialize pairs) = .ok url →
      url.query = some (crate.form_serialize pairs)
  no_query_of_parse : ∀ text url, Plain text → crate.parse text = .ok url → url.query = none

section

variable {crate : UrlCrate} {values : ValueCrate}

def query_pairs (crate : UrlCrate) (url : Url) : List (String × String) :=
  crate.form_parse (url.query.getD "")

theorem plain_origin_text {base : Url} {host : Host} (hscheme : Plain base.scheme)
    (hhost : Plain host.to_string) : Plain (origin_text base host) := by
  have hpart : Plain (host_part host) := by
    cases host with
    | Domain name => exact hhost
    | Ipv4 ip => exact plain_ipv4 ip
    | Ipv6 ip => exact (Plain.append (by simp [Plain]) (plain_ipv6 ip)).append (by simp [Plain])
  unfold origin_text
  refine ((hscheme.append (by simp [Plain])).append hpart).append ?_
  split
  · exact Plain.append (by simp [Plain]) (plain_repr _)
  · simp [Plain]

/-- The query of an assembled URL is the form it was assembled with. -/
theorem query_pairs_of_assemble_url (hlaws : FormLaws crate) {service : Service} {path : String}
    {pairs : List (String × String)} {url : Url}
    (h : assemble_url crate service path (crate.form_serialize pairs) = .ok url) :
    query_pairs crate url = pairs := by
  unfold assemble_url at h
  cases hhost : service.base_url.host with
  | none =>
    simp only [hhost] at h
    cases h
  | some host =>
    simp only [hhost] at h
    generalize hanswer : crate.parse _ = answer at h
    cases answer with
    | error e => cases h
    | ok parsed =>
      dsimp only at h
      split at h
      · rename_i hcontained
        obtain rfl := Except.ok.inj h
        simp only [contained, Bool.and_eq_true, decide_eq_true_eq] at hcontained
        obtain ⟨⟨⟨⟨⟨⟨hscheme, hstr⟩, -⟩, hpath⟩, -⟩, -⟩, -⟩ := hcontained
        obtain ⟨hpscheme, hppath, hphost⟩ := hlaws.parsed_plain _ _ hanswer
        have horigin : Plain (origin_text service.base_url host) := by
          refine plain_origin_text (hscheme ▸ hpscheme) (hphost _ ?_)
          rw [hstr, Url.host_str, hhost]
          rfl
        have htext : Plain (origin_text service.base_url host ++ path) := horigin.append (hpath ▸ hppath)
        unfold query_pairs
        split at hanswer
        · rename_i hempty
          rw [String.append_empty] at hanswer
          rw [hlaws.no_query_of_parse _ _ htext hanswer, Option.getD_none, ← hempty, hlaws.form_parse]
        · rw [← String.append_assoc] at hanswer
          rw [hlaws.query_of_parse _ _ _ htext hanswer, Option.getD_some, hlaws.form_parse]
      · cases h

/-! The pairs that a request is bound with. -/

/-- Each fixed pair is in the query, and is all that its key has there. -/
def Pinned (crate : UrlCrate) (query_fixed : BTreeMap String String) (url : Url) : Prop :=
  ∀ kv ∈ query_fixed, (query_pairs crate url).filter (fun pair => pair.1 = kv.1) = [kv]

/-- What the caller gives under the key of a fixed pair is the pair's value. -/
def Undisturbed (values : ValueCrate) (call : ApiCall) (args : BTreeMap String Value) : Prop :=
  ∀ kv ∈ call.query_fixed, ∀ p ∈ call.params, p.location = .Query → p.name = kv.1 →
    ∀ value, args.get p.name = some value → query_strings values p.name value = .ok [kv.2]

/-- A key's pairs in a form are its strings in the map the form was made of. -/
theorem filter_pairs {map : BTreeMap String (List String)} (h : map.Sorted) (key : String) :
    (map.flatMap fun kv => kv.2.map fun v => (kv.1, v)).filter (fun pair => pair.1 = key) =
      ((map.get key).getD []).map fun v => (key, v) := by
  induction map with
  | nil => rfl
  | cons head rest ih =>
    have hrest := BTreeMap.Sorted.tail h
    obtain ⟨k, strings⟩ := head
    rw [List.flatMap_cons, List.filter_append, ih hrest]
    by_cases hk : k = key
    · subst hk
      have hnone : BTreeMap.get rest k = none := by
        by_contra hsome
        obtain ⟨value, hvalue⟩ := Option.ne_none_iff_exists'.mp hsome
        have hlt := (List.pairwise_cons.mp h).1 k (List.mem_map.mpr ⟨_, BTreeMap.mem_of_get hvalue, rfl⟩)
        exact absurd hlt (String.lt_irrefl k)
      have hget : BTreeMap.get ((k, strings) :: rest) k = some strings := by simp [BTreeMap.get]
      rw [hnone, hget, Option.getD_none, Option.getD_some, List.map_nil, List.append_nil]
      exact List.filter_eq_self.mpr fun pair hpair => by
        obtain ⟨v, -, rfl⟩ := List.mem_map.mp hpair
        simp
    · have hget : BTreeMap.get ((k, strings) :: rest) key = BTreeMap.get rest key := by
        simp [BTreeMap.get, hk]
      have hnil : (strings.map fun v => (k, v)).filter (fun pair => pair.1 = key) = [] :=
        List.filter_eq_nil_iff.mpr fun pair hpair => by
          obtain ⟨v, -, rfl⟩ := List.mem_map.mp hpair
          simpa using hk
      rw [hget, hnil, List.nil_append]

variable {call : ApiCall} {service : Service} {args : BTreeMap String Value}

/-- A query param with a value writes its strings; everything else leaves the
query as it was. -/
theorem bind_param_query {parts parts' : Parts} {p : Param} (h : bind_param values args parts p = .ok parts') :
    (p.location = .Query ∧ ∃ value strings, args.get p.name = some value ∧
        query_strings values p.name value = .ok strings ∧
        parts'.query_values = parts.query_values.insert p.name strings) ∨
      ((p.location = .Query → args.get p.name = none) ∧ parts'.query_values = parts.query_values) := by
  unfold bind_param at h
  split at h
  · rename_i hnone
    cases h
    exact .inr ⟨fun _ => hnone, rfl⟩
  rename_i value hvalue
  unfold bind_one at h
  split at h
  · rename_i hlocation
    obtain ⟨text, -, rfl⟩ : ∃ text, scalar_string values p.name value = .ok text ∧
        { parts with path_values := parts.path_values.insert p.name text } = parts' := by simpa using h
    exact .inr ⟨fun hquery => absurd (hlocation.symm.trans hquery) (by rintro ⟨⟩), rfl⟩
  · rename_i hlocation
    obtain ⟨strings, hstrings, rfl⟩ : ∃ strings, query_strings values p.name value = .ok strings ∧
        { parts with query_values := parts.query_values.insert p.name strings } = parts' := by simpa using h
    exact .inl ⟨hlocation, value, strings, hvalue, hstrings, rfl⟩
  · rename_i hlocation
    split at h
    · cases h
    simp only [except.bind_eq_ok] at h
    obtain ⟨text, -, h⟩ := h
    split at h
    · cases h
    obtain rfl := except.pure_eq_ok.mp h
    exact .inr ⟨fun hquery => absurd (hlocation.symm.trans hquery) (by rintro ⟨⟩), rfl⟩
  · rename_i pointer hlocation
    obtain ⟨body, -, rfl⟩ : ∃ body, assign_body values parts.body pointer value p.name = .ok body ∧
        { parts with body := some body } = parts' := by simpa using h
    exact .inr ⟨fun hquery => absurd (hlocation.symm.trans hquery) (by rintro ⟨⟩), rfl⟩
  · cases h

/-- The strings of a key, after all params: those of the value given under it if
a query param has its name, else those it had. -/
theorem query_values_of_bind_params {params : List Param} {parts parts' : Parts}
    (h : params.foldlM (bind_param values args) parts = .ok parts') (hsorted : parts.query_values.Sorted) :
    parts'.query_values.Sorted ∧ ∀ key,
      (∃ p ∈ params, p.location = .Query ∧ p.name = key ∧ ∃ value strings, args.get key = some value ∧
          query_strings values key value = .ok strings ∧ parts'.query_values.get key = some strings) ∨
        ((∀ p ∈ params, p.location = .Query → p.name = key → args.get key = none) ∧
          parts'.query_values.get key = parts.query_values.get key) := by
  induction params generalizing parts with
  | nil =>
    cases h
    exact ⟨hsorted, fun key => .inr ⟨fun _ hp => absurd hp List.not_mem_nil, rfl⟩⟩
  | cons p params ih =>
    rw [List.foldlM_cons, except.bind_eq_ok] at h
    obtain ⟨parts₁, hfirst, hrest⟩ := h
    obtain ⟨hlocation, value, strings, hvalue, hstrings, hinsert⟩ | ⟨hidle, hsame⟩ := bind_param_query hfirst
    · obtain ⟨hsorted', hkeys⟩ := ih hrest (hinsert ▸ BTreeMap.sorted_insert hsorted p.name strings)
      refine ⟨hsorted', fun key => ?_⟩
      obtain ⟨q, hq, hwritten⟩ | ⟨hnone, hget⟩ := hkeys key
      · exact .inl ⟨q, List.mem_cons_of_mem _ hq, hwritten⟩
      rw [hinsert, BTreeMap.get_insert] at hget
      split at hget
      · rename_i hname
        subst hname
        exact .inl ⟨p, List.mem_cons_self .., hlocation, rfl, value, strings, hvalue, hstrings, hget⟩
      · rename_i hname
        refine .inr ⟨fun q hq hquery hqname => ?_, hget⟩
        obtain rfl | hq := List.mem_cons.mp hq
        · exact absurd hqname.symm hname
        · exact hnone q hq hquery hqname
    · obtain ⟨hsorted', hkeys⟩ := ih hrest (hsame ▸ hsorted)
      refine ⟨hsorted', fun key => ?_⟩
      obtain ⟨q, hq, hwritten⟩ | ⟨hnone, hget⟩ := hkeys key
      · exact .inl ⟨q, List.mem_cons_of_mem _ hq, hwritten⟩
      refine .inr ⟨fun q hq hquery hqname => ?_, hsame ▸ hget⟩
      obtain rfl | hq := List.mem_cons.mp hq
      · exact hqname ▸ hidle hquery
      · exact hnone q hq hquery hqname

theorem pinned_iff_undisturbed (hlaws : FormLaws crate) (hsorted : BTreeMap.Sorted call.query_fixed) {request : BoundRequest}
    (h : bind crate values call service args = .ok request) :
    Pinned crate call.query_fixed request.url ↔ Undisturbed values call args := by
  unfold bind at h
  simp only [except.bind_eq_ok, except.mapError_eq_ok, except.pure_eq_ok] at h
  obtain ⟨template, -, parts, hparts, path, -, url, hurl, rfl⟩ := h
  obtain ⟨hparts, hkeys⟩ := query_values_of_bind_params hparts (BTreeMap.sorted_collect _)
  have hpairs := query_pairs_of_assemble_url hlaws hurl
  have hfixed : ∀ kv ∈ call.query_fixed,
      (BTreeMap.collect (call.query_fixed.map fun kv => (kv.1, [kv.2]))).get kv.1 = some [kv.2] := by
    intro kv hkv
    have hmap : BTreeMap.Sorted (call.query_fixed.map fun kv => (kv.1, [kv.2])) := by
      unfold BTreeMap.Sorted at hsorted ⊢
      rwa [List.map_map]
    rw [BTreeMap.collect_of_sorted hmap]
    exact BTreeMap.get_of_mem_sorted hmap (List.mem_map.mpr ⟨kv, hkv, rfl⟩)
  have hone : ∀ kv ∈ call.query_fixed, (query_pairs crate url).filter (fun pair => pair.1 = kv.1) = [kv] ↔
      parts.query_values.get kv.1 = some [kv.2] := by
    intro kv hkv
    rw [hpairs, filter_pairs hparts]
    cases hget : parts.query_values.get kv.1 with
    | none =>
      obtain ⟨p, -, -, -, value, strings, -, -, hsome⟩ | ⟨-, hsame⟩ := hkeys kv.1
      · rw [hget] at hsome
        cases hsome
      · rw [hget, hfixed kv hkv] at hsame
        cases hsame
    | some strings =>
      rw [Option.getD_some, Option.some.injEq]
      constructor
      · intro hmap
        obtain ⟨v, rfl, hv⟩ := List.map_eq_singleton_iff.mp hmap
        rw [← hv]
      · rintro rfl
        rfl
  constructor
  · intro hpinned kv hkv p hp hlocation hname value hvalue
    have hget := (hone kv hkv).mp (hpinned kv hkv)
    obtain ⟨q, -, -, -, value', strings, hvalue', hstrings, hsome⟩ | ⟨hnone, -⟩ := hkeys kv.1
    · rw [hname] at hvalue
      rw [hname, Option.some.inj (hvalue.symm.trans hvalue'), hstrings, Option.some.inj (hsome.symm.trans hget)]
    · rw [← hname, hvalue] at hnone
      cases hnone p hp hlocation rfl
  · intro hundisturbed kv hkv
    refine (hone kv hkv).mpr ?_
    obtain ⟨p, hp, hlocation, hname, value, strings, hvalue, hstrings, hsome⟩ | ⟨-, hsame⟩ := hkeys kv.1
    · have hgiven := hundisturbed kv hkv p hp hlocation hname value (hname ▸ hvalue)
      rw [hname, hstrings] at hgiven
      rw [hsome, Except.ok.inj hgiven]
    · rw [hsame, hfixed kv hkv]

/-! The pairs of the pages after the first. -/

variable {from_slice : List UInt8 → Except String Value}

/-- The cursor of a response goes under a key that no fixed pair has, or is the
value of that pair. -/
def CursorKeeps (from_slice : List UInt8 → Except String Value) (call : ApiCall) (response : CallResponse) : Prop :=
  ∀ path key, call.pagination = .Cursor path key → ∀ kv ∈ call.query_fixed, kv.1 = key →
    ∀ body cursor, from_slice response.body = .ok body → resolve path.tokens body = some (.string cursor) →
      cursor = kv.2

/-- A next page is asked for at the URL of the last one, with the cursor. -/
theorem next_request_spec {response : CallResponse} {pagination : Pagination} {next : BoundRequest}
    (h : next_request crate from_slice response pagination = .ok (some next)) :
    ∃ path key body cursor, pagination = .Cursor path key ∧ from_slice response.body = .ok body ∧
      resolve path.tokens body = some (.string cursor) ∧
      next.url = set_query_param crate response.url key cursor := by
  unfold next_request at h
  split at h
  · cases h
  rename_i path key
  split at h
  · cases h
  rename_i body hbody
  split at h
  · cases h
  · cases h
  · rename_i cursor hcursor
    cases h
    exact ⟨path, key, body, cursor, rfl, hbody, hcursor, rfl⟩
  · cases h

theorem query_pairs_set_query_param (hlaws : FormLaws crate) (url : Url) (key value : String) :
    query_pairs crate (set_query_param crate url key value) =
      (query_pairs crate url).filter (fun kv => kv.1 ≠ key) ++ [(key, value)] := by
  unfold query_pairs set_query_param
  rw [Option.getD_some, hlaws.form_parse]

theorem pinned_next_iff (hlaws : FormLaws crate) {response : CallResponse} {next : BoundRequest}
    (hpinned : Pinned crate call.query_fixed response.url)
    (h : next_request crate from_slice response call.pagination = .ok (some next)) :
    Pinned crate call.query_fixed next.url ↔ CursorKeeps from_slice call response := by
  obtain ⟨path, key, body, cursor, hpagination, hbody, hcursor, hurl⟩ := next_request_spec h
  have hsplit : ∀ kv ∈ call.query_fixed, (query_pairs crate next.url).filter (fun pair => pair.1 = kv.1) =
      if kv.1 = key then [(key, cursor)] else [kv] := by
    intro kv hkv
    rw [hurl, query_pairs_set_query_param hlaws, List.filter_append, List.filter_filter]
    split
    · rename_i hkey
      have hnone : (query_pairs crate response.url).filter
          (fun pair => decide (pair.1 = kv.1) && decide (pair.1 ≠ key)) = [] :=
        List.filter_eq_nil_iff.mpr fun pair _ => by simp [hkey]
      rw [hnone, List.nil_append, List.filter_cons_of_pos (by simpa using hkey.symm), List.filter_nil]
    · rename_i hkey
      have hsame : (query_pairs crate response.url).filter
          (fun pair => decide (pair.1 = kv.1) && decide (pair.1 ≠ key)) =
            (query_pairs crate response.url).filter fun pair => pair.1 = kv.1 :=
        List.filter_congr fun pair _ => by
          by_cases hpair : pair.1 = kv.1
          · simp [hpair, hkey]
          · simp [hpair]
      rw [hsame, hpinned kv hkv, List.filter_cons_of_neg (by simpa using Ne.symm hkey), List.filter_nil,
        List.append_nil]
  constructor
  · intro hnext path' key' hpagination' kv hkv hkey body' cursor' hbody' hcursor'
    obtain ⟨rfl, rfl⟩ := Pagination.Cursor.inj (hpagination.symm.trans hpagination')
    obtain rfl := Except.ok.inj (hbody.symm.trans hbody')
    obtain rfl := Value.string.inj (Option.some.inj (hcursor.symm.trans hcursor'))
    have hpair := hnext kv hkv
    rw [hsplit kv hkv, if_pos hkey] at hpair
    exact congrArg Prod.snd (List.cons.inj hpair).1
  · intro hkeeps kv hkv
    rw [hsplit kv hkv]
    split
    · rename_i hkey
      rw [hkeeps path key hpagination kv hkv hkey body cursor hbody hcursor, ← hkey]
    · rfl

/-! All requests of a run. -/

/-- Each redirect leads to a URL that has the fixed pairs. -/
def RedirectsKeep (crate : UrlCrate) (query_fixed : BTreeMap String String) (evs : List IoEvent) : Prop :=
  ∀ before client request exchange after, evs = before ++ ⟨.exchange client request, exchange⟩ :: after →
    (chain_of before).followed ≠ 0 → Pinned crate query_fixed request.url

/-- Where the chain of redirects is, and whether all of them kept the pairs. -/
structure Redirects where
  chain : Chain := {}
  keep : Prop := True

def Redirects.note (crate : UrlCrate) (query_fixed : BTreeMap String String) (s : Redirects) :
    IoEvent → Redirects
  | ⟨.exchange client request, exchange⟩ =>
    ⟨s.chain.note ⟨.exchange client request, exchange⟩,
      s.keep ∧ (s.chain.followed ≠ 0 → Pinned crate query_fixed request.url)⟩
  | ⟨.now, _⟩ => s
  | ⟨.env _, _⟩ => s

theorem Redirects.chain_note (query_fixed : BTreeMap String String) (s : Redirects) (e : IoEvent) :
    (s.note crate query_fixed e).chain = s.chain.note e := by
  obtain ⟨_ | _ | _, _⟩ := e
  · rfl
  · rfl
  · rfl

theorem Redirects.chain_foldl (query_fixed : BTreeMap String String) (evs : List IoEvent) (s : Redirects) :
    (evs.foldl (Redirects.note crate query_fixed) s).chain = evs.foldl Chain.note s.chain := by
  induction evs generalizing s with
  | nil => rfl
  | cons e evs ih => rw [List.foldl_cons, List.foldl_cons, ih, Redirects.chain_note]

theorem Redirects.keep_foldl {query_fixed : BTreeMap String String} {evs : List IoEvent} {s : Redirects}
    (hkeep : s.keep)
    (h : ∀ before client request exchange after, evs = before ++ ⟨.exchange client request, exchange⟩ :: after →
      (before.foldl Chain.note s.chain).followed ≠ 0 → Pinned crate query_fixed request.url) :
    (evs.foldl (Redirects.note crate query_fixed) s).keep := by
  induction evs generalizing s with
  | nil => exact hkeep
  | cons e evs ih =>
    refine ih ?_ ?_
    · obtain ⟨_ | _ | ⟨client, request⟩, answer⟩ := e
      · exact hkeep
      · exact hkeep
      · exact ⟨hkeep, h [] client request answer evs rfl⟩
    · intro before client request exchange after heq
      rw [Redirects.chain_note]
      exact h (e :: before) client request exchange after (by rw [heq]; rfl)

/-- A request has the pairs, as long as the redirects before it kept them. -/
def Question.Pinned (crate : UrlCrate) (query_fixed : BTreeMap String String) (s : Redirects) : Question → Prop
  | .exchange _ request => s.keep → s.chain.followed = 0 → http.Pinned crate query_fixed request.url
  | _ => True

/-- A response comes from a URL that has the pairs, as long as the redirects
kept them. -/
def Answered (crate : UrlCrate) (query_fixed : BTreeMap String String) (s : Redirects) :
    Except CallError CallResponse → Prop
  | .ok response => s.chain.followed = 0 ∧ (s.keep → Pinned crate query_fixed response.url)
  | .error _ => True

variable {client : Client} {params : SendParams} {query_fixed : BTreeMap String String}

theorem send_hops_pinned (started : Instant) (left : Nat) (request : BoundRequest) (s : Redirects)
    (hpinned : s.keep → s.chain.followed = 0 → Pinned crate query_fixed request.url) :
    (send_hops crate client params started left request).Safe (Redirects.note crate query_fixed)
      (Question.Pinned crate query_fixed) (Answered crate query_fixed) s := by
  induction left using Nat.strongRecOn generalizing request s with
  | ind left ih =>
    rw [send_hops.eq_def]
    simp only [Io.now_bind, Io.exchange_bind, Prog.pure_eq]
    split
    · exact .done trivial
    refine .ask trivial fun now => ?_
    split
    · exact .done trivial
    refine (hop_headers_still (fun _ _ _ => rfl) (fun _ _ => trivial) request params.auth s).bind
      fun s' answer => ?_
    rintro rfl
    split
    · exact .done trivial
    rename_i headers
    refine .ask hpinned fun exchange => ?_
    split
    · exact .done trivial
    rename_i response houtcome
    split
    · rename_i hredirect
      split
      · exact .done trivial
      · rename_i left
        split
        · exact .done trivial
        rename_i next hnext
        refine ih left (Nat.lt_succ_self _) next _ fun _ hfollowed => ?_
        simp [Redirects.note, Chain.note, houtcome, hredirect] at hfollowed
    · rename_i hfinal
      split
      · exact .done trivial
      · refine .done ⟨by simp [Redirects.note, Chain.note, houtcome, hfinal], fun hkeep => ?_⟩
        obtain ⟨hbefore, hhere⟩ := hkeep
        by_cases hfollowed : s'.chain.followed = 0
        · exact hpinned hbefore hfollowed
        · exact hhere hfollowed

theorem fetch_pages_pinned (hlaws : FormLaws crate) {pagination : Pagination}
    (hcall : call.pagination = pagination) (hcursor : ∀ response, CursorKeeps from_slice call response)
    (max_pages left : Nat) (request : BoundRequest) (pages : List CallResponse) (s : Redirects)
    (hpinned : s.keep → Pinned crate call.query_fixed request.url) (hstart : s.chain.followed = 0) :
    (fetch_pages crate from_slice client pagination max_pages params left request pages).Safe
      (Redirects.note crate call.query_fixed) (Question.Pinned crate call.query_fixed) (fun _ _ => True) s := by
  induction left generalizing request pages s with
  | zero => exact .done trivial
  | succ left ih =>
    have hsend : (send crate client request params).Safe (Redirects.note crate call.query_fixed)
        (Question.Pinned crate call.query_fixed) (Answered crate call.query_fixed) s := by
      refine .ask trivial fun started => ?_
      exact send_hops_pinned started _ request s fun hkeep _ => hpinned hkeep
    unfold fetch_pages
    refine hsend.bind fun s' result hresult => ?_
    split
    · exact .done trivial
    rename_i response
    obtain ⟨hended, hanswered⟩ := hresult
    split
    · exact .done trivial
    · exact .done trivial
    · rename_i next hnext
      subst hcall
      exact ih next _ s' (fun hkeep => (pinned_next_iff hlaws (hanswered hkeep) hnext).mpr (hcursor response)) hended

/-- The values of the caller's decide whether the first request has the fixed
pairs of the call, and the cursor of a page whether the next one has. Where
both keep them, and so does each redirect, every request of the call has them. -/
theorem fixed_pairs_sent (hlaws : FormLaws crate) (hsorted : BTreeMap.Sorted call.query_fixed) {first : BoundRequest}
    (hbind : bind crate values call service args = .ok first) :
    (Pinned crate call.query_fixed first.url ↔ Undisturbed values call args) ∧
      (∀ (from_slice : List UInt8 → Except String Value) (response : CallResponse) (next : BoundRequest),
        Pinned crate call.query_fixed response.url →
          next_request crate from_slice response call.pagination = .ok (some next) →
            (Pinned crate call.query_fixed next.url ↔ CursorKeeps from_slice call response)) ∧
      (Undisturbed values call args → (∀ path key, call.pagination = .Cursor path key →
          ∀ kv ∈ call.query_fixed, kv.1 ≠ key) →
        ∀ (from_slice : List UInt8 → Except String Value) (client : Client) (params : SendParams) (max_pages : Nat)
          (evs : List IoEvent), (paginate crate from_slice client first call.pagination max_pages params).Runs evs →
          RedirectsKeep crate call.query_fixed evs → ∀ client' request exchange,
            ⟨.exchange client' request, exchange⟩ ∈ evs → Pinned crate call.query_fixed request.url) := by
  have hiff := pinned_iff_undisturbed hlaws hsorted hbind
  refine ⟨hiff, fun from_slice response next hpinned hnext => pinned_next_iff hlaws hpinned hnext, ?_⟩
  rintro hundisturbed hkey from_slice client params max_pages evs ⟨rest, hemits⟩ hredirects client' request exchange hmem
  obtain ⟨before, after, rfl⟩ := List.append_of_mem hmem
  have hcursor : ∀ response, CursorKeeps from_slice call response :=
    fun response path key hpagination kv hkv hname => absurd hname (hkey path key hpagination kv hkv)
  have hsafe : (paginate crate from_slice client first call.pagination max_pages params).Safe
      (Redirects.note crate call.query_fixed) (Question.Pinned crate call.query_fixed) (fun _ _ => True) {} :=
    fetch_pages_pinned hlaws rfl hcursor max_pages max_pages first [] {} (fun _ => hiff.mpr hundisturbed) rfl
  have hkeep : (before.foldl (Redirects.note crate call.query_fixed) {}).keep :=
    Redirects.keep_foldl trivial fun earlier client'' request' exchange' later heq =>
      hredirects earlier client'' request' exchange' (later ++ ⟨.exchange client' request, exchange⟩ :: after)
        (by rw [heq]; simp)
  by_cases hfollowed : (before.foldl (Redirects.note crate call.query_fixed) {}).chain.followed = 0
  · exact hsafe.question hemits hkeep hfollowed
  · rw [Redirects.chain_foldl] at hfollowed
    exact hredirects before client' request exchange after rfl hfollowed

end

/-! A call whose pinned pair is also a param. -/

/-- A crate that knows the URLs of one place only, with any query. -/
def things_crate : UrlCrate where
  parse text :=
    let place := text.toList.takeWhile (· ≠ '?')
    let rest := text.toList.dropWhile (· ≠ '?')
    if place = "https://svc.example/things".toList then
      .ok { scheme := "https", host := some (.Domain "svc.example"), path := "/things"
            query := if rest = [] then none else some (String.ofList (rest.drop 1)) }
    else .error "relative URL without a base"
  join _ _ := .error "relative URL without a base"
  form_parse := form_urlencoded.parse
  form_serialize := form_urlencoded.serialize

theorem things_crate_laws : FormLaws things_crate where
  form_parse := form_urlencoded.parse_serialize
  parsed_plain text url h := by
    simp only [things_crate] at h
    split at h
    · obtain rfl := Except.ok.inj h
      refine ⟨?_, ?_, fun host hhost => ?_⟩
      · simp [Plain]
      · simp [Plain]
      · obtain rfl := Option.some.inj hhost
        simp [Plain, Host.to_string]
    · cases h
  query_of_parse text pairs url hplain h := by
    have hall : ∀ c ∈ text.toList, decide (c ≠ '?') = true := fun c hc => decide_eq_true (hplain c hc).1
    have hlist : (text ++ "?" ++ form_urlencoded.serialize pairs).toList =
        text.toList ++ '?' :: (form_urlencoded.serialize pairs).toList := by simp
    simp only [things_crate] at h hlist
    simp only [hlist, List.takeWhile_append_of_pos hall, List.dropWhile_append_of_pos hall] at h
    split at h
    · obtain rfl := Except.ok.inj h
      simp only [ne_eq, not_true_eq_false, decide_false, Bool.false_eq_true, not_false_eq_true,
        List.dropWhile_cons_of_neg, reduceCtorEq, if_false, List.drop_succ_cons, List.drop_zero, String.ofList_toList]
      rfl
    · cases h
  no_query_of_parse text url hplain h := by
    have hall : ∀ c ∈ text.toList, decide (c ≠ '?') = true := fun c hc => decide_eq_true (hplain c hc).1
    have hnil : text.toList.dropWhile (· ≠ '?') = [] := by
      rw [← List.append_nil text.toList, List.dropWhile_append_of_pos hall]
      rfl
    simp only [things_crate, hnil] at h
    split at h
    · obtain rfl := Except.ok.inj h
      rfl
    · cases h

def things_service : Service where
  owner_id := 1
  slug := default
  base_url := { scheme := "https", host := some (.Domain "svc.example") }
  origin_allowlist := []
  default_headers := []
  timeout_ms := 1000
  max_concurrency := 1
  rate_limit_per_min := none
  max_response_bytes := 1000

/-- A pinned format, and a param of that name. -/
def things_pack_call : pack.PackApiCall where
  service := "svc"
  method := "GET"
  path_template := "/things"
  query_fixed := [("format", "json")]
  body_template := none
  access := "read"
  idempotent := true
  projection := none
  pagination := .None
  timeout_ms := none
  max_response_bytes := none
  params := [{ name := "format", location := .Query, ty := "string", required := false, default := none
               fixed := none, enum_values := none, description := none, position := 0 }]
  tags := []
  description := none

def things_pack : pack.Pack where
  version := pack.PACK_VERSION
  services := [("svc", { base_url := "https://svc.example/", origin_allowlist := ["https://svc.example"]
                         default_headers := [], timeout_ms := 1000, max_concurrency := 1
                         rate_limit_per_min := none, max_response_bytes := 1000 })]
  api_calls := [("things", things_pack_call)]
  scripts := []
  endpoints := []
  tags := []

def things_call : ApiCall where
  owner_id := 1
  slug := default
  service_slug := default
  method := .GET
  path_template := "/things"
  query_fixed := [("format", "json")]
  body_template := none
  access := .Read
  idempotent := true
  projection := none
  pagination := .None
  timeout_ms := none
  max_response_bytes := none
  params := [{ name := "format", location := .Query, ty := .String, required := false, default := none
               fixed := none, enum_values := none, description := none, position := 0 }]
  description := none

def things_request (query : String) : BoundRequest where
  method := .GET
  url := { scheme := "https", host := some (.Domain "svc.example"), path := "/things", query := some query }
  headers := []
  body := none

theorem fixed_pairs_sent_unasked :
    bind things_crate default things_call things_service [] = .ok (things_request "format=json") ∧
      Pinned things_crate things_call.query_fixed (things_request "format=json").url := by
  have hbound : bind things_crate default things_call things_service [] = .ok (things_request "format=json") := rfl
  have hsorted : BTreeMap.Sorted things_call.query_fixed := List.pairwise_singleton _ _
  have hundisturbed : Undisturbed default things_call [] := by
    rintro kv - p - - - value ⟨⟩
  exact ⟨hbound, (fixed_pairs_sent things_crate_laws hsorted hbound).1.mpr hundisturbed⟩

/-- The call passes validation, and its caller changes the pinned format. -/
theorem fixed_pair_overridden :
    pack.validate_api_call default things_pack "things" things_pack_call = [] ∧
      pack.api_call_from_pack (fun _ => "") 1 default default things_pack_call = .ok things_call ∧
      bind things_crate default things_call things_service [("format", .string "xml")] =
        .ok (things_request "format=xml") ∧
      query_pairs things_crate (things_request "format=xml").url = [("format", "xml")] ∧
      ¬ Pinned things_crate things_call.query_fixed (things_request "format=xml").url := by
  have hpairs : query_pairs things_crate (things_request "format=xml").url = [("format", "xml")] := by
    decide +kernel
  refine ⟨rfl, rfl, rfl, hpairs, fun hpinned => ?_⟩
  have hpair := hpinned ("format", "json") (List.mem_singleton_self _)
  rw [hpairs] at hpair
  exact absurd hpair (by decide)

end api2mcp.http
