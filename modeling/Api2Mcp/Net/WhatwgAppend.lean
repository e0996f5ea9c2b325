import Api2Mcp.Net.WhatwgUrl
import Api2Mcp.Text.Utf8
import Mathlib.Data.List.Flatten

/-!
What becomes of a URL when more is written behind its text: spaces that were
stripped before become part of it, and a query stays where it is put.
-/

namespace whatwg

open net

/-! Parts of texts. -/

theorem cut_of_mem {d : Char} {text : List Char} (h : d ∈ text) :
    ∃ before after, text = before ++ d :: after ∧ d ∉ before ∧ cut d text = (before, some after) := by
  obtain ⟨before, after, rfl, hbefore⟩ := List.eq_append_cons_of_mem h
  exact ⟨before, after, rfl, hbefore, cut_append_cons hbefore after⟩

theorem split_port_append {rest : List Char} (h : ':' ∉ rest) (bracket : Bool) (text : List Char) :
    split_port bracket (text ++ rest) =
      match split_port bracket text with
      | (host, none) => (host ++ rest, none)
      | (host, some port) => (host, some (port ++ rest)) := by
  induction text generalizing bracket with
  | nil =>
    have hnone : ∀ bracket, split_port bracket rest = (rest, none) := by
      induction rest with
      | nil => exact fun _ => rfl
      | cons c rest ih =>
        intro bracket
        simp only [List.mem_cons, not_or] at h
        simp [split_port, Ne.symm h.1, ih h.2]
    simp [split_port, hnone]
  | cons c text ih =>
    rw [List.cons_append, split_port, split_port]
    split
    · rfl
    · rw [ih]
      generalize split_port (c = '[' || (bracket && c ≠ ']')) text = pair
      obtain ⟨host, port⟩ := pair
      cases port <;> rfl

theorem after_at_append {rest : List Char} (h : '@' ∉ rest) (text : List Char) :
    after_at (text ++ rest) = (after_at text).map (· ++ rest) := by
  have hall : ∀ c ∈ rest.reverse, decide (c ≠ '@') = true := fun c hc =>
    decide_eq_true fun heq => h (heq ▸ List.mem_reverse.mp hc)
  unfold after_at
  by_cases hat : '@' ∈ text
  · rw [if_pos (List.mem_append_left _ hat), if_pos hat, List.reverse_append, List.takeWhile_append_of_pos hall]
    simp
  · have hnot : '@' ∉ text ++ rest := by
      simp [hat, h]
    rw [if_neg hnot, if_neg hat]
    rfl

/-! Paths grow. -/

theorem length_encode_append (set : Char → Bool) (text : List Char) {rest : List Char} (h : rest ≠ []) :
    (encode set text).length < (encode set (text ++ rest)).length := by
  have hrest := length_le_encode set rest
  have hpos := List.length_pos_of_ne_nil h
  rw [encode_append, List.length_append]
  omega

/-- The last character of a segment of dots. -/
theorem getLast?_of_is_single_dot {segment : List Char} (h : is_single_dot segment = true) :
    segment.getLast? = some '.' ∨ segment.getLast? = some 'e' ∨ segment.getLast? = some 'E' := by
  obtain rfl | rfl | rfl := is_single_dot_cases h
  · exact .inl rfl
  · exact .inr (.inl rfl)
  · exact .inr (.inr rfl)

theorem getLast?_of_is_double_dot {segment : List Char} (h : is_double_dot segment = true) :
    segment.getLast? = some '.' ∨ segment.getLast? = some 'e' ∨ segment.getLast? = some 'E' := by
  obtain ⟨first, second, rfl, _, hsecond⟩ := is_double_dot_cases h
  obtain hlast | hlast | hlast := getLast?_of_is_single_dot hsecond
  · exact .inl (by simp [hlast])
  · exact .inr (.inl (by simp [hlast]))
  · exact .inr (.inr (by simp [hlast]))

theorem length_path_text_append (path : List (List Char)) (segment : List Char) :
    (path_text (path ++ [segment])).length = (path_text path).length + 1 + segment.length := by
  simp [path_text]
  omega

theorem length_path_text_shorten (scheme : String) (path : List (List Char)) :
    (path_text (shorten scheme path)).length ≤ (path_text path).length :=
  ((shorten_sublist path).flatMap _).length_le

theorem length_pushed (scheme : String) (path : List (List Char)) (segment : List Char) :
    (pushed scheme path segment).length = segment.length := by
  unfold pushed
  split
  · rename_i hdrive
    simp only [Bool.and_eq_true] at hdrive
    match segment, hdrive.2 with
    | [a, b], _ => rfl
  · rfl

namespace absolute

/-- A URL whose path is longer. -/
def Longer (u v : Url) : Prop := u.path.toList.length < v.path.toList.length

theorem longer_with_path {path path' : List Char} (h : path.length < path'.length) (u v : Url) :
    Longer (with_path u path) (with_path v path') := by
  simpa [Longer, with_path] using h

theorem opaque_path_state_cons {rest : List Char} (h : rest ≠ []) (more : Bool) (c : Char) :
    opaque_path_state more (c :: rest) = encode_char c0_control_set c ++ opaque_path_state more rest := by
  obtain ⟨next, rest, rfl⟩ := List.exists_cons_of_ne_nil h
  rfl

theorem opaque_path_state_of_getLast? {more : Bool} {text : List Char} (h : more = false ∨ text.getLast? ≠ some ' ') :
    opaque_path_state more text = encode c0_control_set text := by
  induction text with
  | nil => rfl
  | cons c rest ih =>
    cases rest with
    | nil =>
      have hkept : ¬ (decide (c = ' ') && more) = true := by
        simp only [Bool.and_eq_true, decide_eq_true_eq, not_and, Bool.not_eq_true]
        rintro rfl
        simpa using h
      rw [opaque_path_state, if_neg hkept]
      exact (List.append_nil _).symm
    | cons next rest =>
      rw [opaque_path_state_cons (List.cons_ne_nil next rest), ih (by simpa using h)]
      rfl

theorem opaque_path_state_space (text : List Char) :
    opaque_path_state true (text ++ [' ']) = encode c0_control_set text ++ ['%', '2', '0'] := by
  induction text with
  | nil => rfl
  | cons c rest ih =>
    rw [List.cons_append, opaque_path_state_cons (by simp), ih, ← List.append_assoc]
    rfl

end absolute

section

variable {spaces : List Char} (hne : spaces ≠ []) (hspaces : ∀ c ∈ spaces, c = ' ')

include hne hspaces

theorem getLast?_append_spaces (text : List Char) : (text ++ spaces).getLast? = some ' ' := by
  rw [List.getLast?_append_of_ne_nil _ hne, List.getLast?_eq_some_getLast hne, hspaces _ (List.getLast_mem hne)]

theorem getLast?_encode_spaces (caret : Bool) (raw : List Char) :
    (encode (path_set caret) (raw ++ spaces)).getLast? = some '0' := by
  have hlast : spaces = spaces.dropLast ++ [' '] := by
    rw [← hspaces _ (List.getLast_mem hne), List.dropLast_append_getLast hne]
  have hcode : ∀ caret, encode (path_set caret) [' '] = ['%', '2', '0'] := by decide
  rw [hlast, ← List.append_assoc, encode_append, hcode]
  simp

/-- Spaces behind a segment make it longer than it was, whatever it was. -/
theorem length_add_segment (caret : Bool) (scheme : String) (path : List (List Char)) (raw : List Char) :
    (path_text (add_segment caret scheme path raw true)).length <
      (path_text (add_segment caret scheme path (raw ++ spaces) true)).length := by
  have hlast := getLast?_encode_spaces hne hspaces caret raw
  have hsingle : is_single_dot (encode (path_set caret) (raw ++ spaces)) = false := by
    rw [Bool.eq_false_iff]
    intro hdot
    have hend := getLast?_of_is_single_dot hdot
    rw [hlast] at hend
    revert hend
    decide
  have hdouble : is_double_dot (encode (path_set caret) (raw ++ spaces)) = false := by
    rw [Bool.eq_false_iff]
    intro hdots
    have hend := getLast?_of_is_double_dot hdots
    rw [hlast] at hend
    revert hend
    decide
  have hlonger := length_encode_append (path_set caret) raw hne
  have hgrown : (path_text (add_segment caret scheme path (raw ++ spaces) true)).length =
      (path_text path).length + 1 + (encode (path_set caret) (raw ++ spaces)).length := by
    rw [add_segment]
    simp only [hdouble, hsingle, Bool.false_eq_true, if_false]
    rw [length_path_text_append, length_pushed]
  rw [hgrown, add_segment]
  split
  · have hshorter := length_path_text_shorten scheme path
    rw [if_pos rfl, length_path_text_append, List.length_nil]
    omega
  split
  · rw [if_pos rfl, length_path_text_append, List.length_nil]
    omega
  · rw [length_path_text_append, length_pushed]
    omega

theorem length_path_of (caret : Bool) (scheme : String) (text : List Char) :
    (path_of caret scheme text).length < (path_of caret scheme (text ++ spaces)).length := by
  have hwhole : ∀ c ∈ spaces, is_separator scheme c = false := by
    intro c hc
    simp [is_separator, hspaces c hc]
  obtain ⟨before, last, hsplit, happend⟩ := splitOnP_append hwhole text
  rw [path_of, path_of, hsplit, happend, path_state_append, path_state_append]
  exact length_add_segment hne hspaces caret scheme _ last

theorem length_path_start_state (caret : Bool) (scheme : String) {d : Char} (hd : is_separator scheme d = true)
    (after : List Char) : (path_start_state caret scheme (d :: after)).length <
      (path_start_state caret scheme (d :: after ++ spaces)).length := by
  rw [List.cons_append, path_start_state, path_start_state, if_pos hd, if_pos hd]
  exact length_path_of hne hspaces caret scheme after

theorem absolute.longer_file_url (caret : Bool) (rest : List Char) : Longer (file_url "" (path_of caret "file" rest))
    (file_url "" (path_of caret "file" (rest ++ spaces))) :=
  longer_with_path (length_path_of hne hspaces caret "file" rest) _ _

omit hne in
/-- What is cut off at a character that is no space. -/
theorem cut_spaces {p : Char → Bool} (hp : p ' ' = true) (rest : List Char) :
    (∃ d after, p d = false ∧ rest.dropWhile p = d :: after ∧ (rest ++ spaces).takeWhile p = rest.takeWhile p ∧
        (rest ++ spaces).dropWhile p = d :: after ++ spaces) ∨
      (rest ++ spaces).takeWhile p = rest ++ spaces := by
  induction rest with
  | nil =>
    refine .inr ?_
    have hall : ∀ c ∈ spaces, p c = true := fun c hc => hspaces c hc ▸ hp
    exact List.takeWhile_eq_self_iff.mpr hall
  | cons c rest ih =>
    cases hc : p c with
    | false => exact .inl ⟨c, rest, hc, by simp [hc], by simp [hc], by simp [hc]⟩
    | true =>
      obtain ⟨d, after, hd, hdrop, htake, happend⟩ | hall := ih
      · exact .inl ⟨d, after, hd, by simp [hc, hdrop], by simp [hc, htake], by simp [hc, happend]⟩
      · exact .inr (by simp [hc, hall])

/-! An authority with spaces behind it is refused. -/

variable {caret : Bool} {domain ipv6 : List Char → Option Host} (hdomain : ∀ text, ' ' ∈ text → domain text = none)

include hdomain

theorem host_parse_spaces (scheme : String) (text : List Char) : host_parse domain ipv6 scheme (text ++ spaces) = none := by
  have hlast := getLast?_append_spaces hne hspaces text
  have hmem : ' ' ∈ text ++ spaces := List.mem_of_getLast? hlast
  unfold host_parse
  split
  · rw [hlast, if_neg (by decide)]
  split
  · exact hdomain _ hmem
  · rw [opaque_host_parse, if_pos (List.any_eq_true.mpr ⟨' ', hmem, by decide⟩)]

namespace absolute

theorem host_state_spaces (url : Url) (text : List Char) : host_state domain ipv6 url (text ++ spaces) = none := by
  have hcolon : ':' ∉ spaces := fun h => by simpa using hspaces _ h
  have hlast := getLast?_append_spaces hne hspaces
  unfold host_state
  rw [split_port_append hcolon]
  obtain ⟨host, port⟩ := split_port false text
  cases port with
  | none =>
    simp only [host_parse_spaces hne hspaces hdomain]
    split <;> rfl
  | some port =>
    have hport : parse_port url.scheme (port ++ spaces) = none := by
      have hdigits : (port ++ spaces).all Char.isDigit = false := by
        rw [List.all_eq_false]
        exact ⟨' ', List.mem_of_getLast? (hlast port), by decide⟩
      simp [parse_port, hdigits]
    simp only [Option.getD_some, hport]
    split
    · rfl
    · split
      · rename_i hsome
        cases hsome
      · rfl

theorem authority_state_spaces (url : Url) (text : List Char) :
    authority_state caret domain ipv6 url (text ++ spaces) = none := by
  have hat : '@' ∉ spaces := fun h => by simpa using hspaces _ h
  unfold authority_state
  rw [after_at_append hat]
  cases after_at text with
  | none => exact host_state_spaces hne hspaces hdomain url text
  | some host =>
    simp only [Option.map_some]
    split
    · rfl
    · exact host_state_spaces hne hspaces hdomain _ host

theorem from_authority_spaces {scheme : String} {rest : List Char} {u v : Url}
    (hu : from_authority caret domain ipv6 scheme rest = some u)
    (hv : from_authority caret domain ipv6 scheme (rest ++ spaces) = some v) : Longer u v := by
  have hspace : (!is_separator scheme ' ') = true := by
    simp [is_separator]
  unfold from_authority at hu hv
  obtain ⟨d, after, hd, hdrop, htake, happend⟩ | hall := cut_spaces hspaces (p := fun c => !is_separator scheme c) hspace rest
  · rw [htake, happend] at hv
    rw [hdrop] at hu
    obtain ⟨_, _, rfl⟩ := Option.map_eq_some_iff.mp hu
    obtain ⟨_, _, rfl⟩ := Option.map_eq_some_iff.mp hv
    exact longer_with_path (length_path_start_state hne hspaces caret scheme (by simpa using hd) after) _ _
  · rw [hall, authority_state_spaces hne hspaces hdomain] at hv
    cases hv

theorem file_host_state_spaces {rest : List Char} {u v : Url} (hu : file_host_state caret domain ipv6 rest = some u)
    (hv : file_host_state caret domain ipv6 (rest ++ spaces) = some v) : Longer u v := by
  have hspace : (!is_slash ' ') = true := by decide
  unfold file_host_state at hu hv
  dsimp only at hu hv
  obtain ⟨d, after, hd, hdrop, htake, happend⟩ | hall := cut_spaces hspaces (p := fun c => !is_slash c) hspace rest
  · have hseparator : is_separator "file" d = true := by
      have hslash : is_slash d = true := by simpa using hd
      have hspecial : special "file" = true := by decide
      simpa [is_separator, is_slash, hspecial] using hslash
    have hlonger := length_path_start_state hne hspaces caret "file" hseparator after
    rw [htake, happend] at hv
    rw [hdrop] at hu
    split at hu
    · rename_i hdrive
      rw [if_pos hdrive] at hv
      obtain rfl := Option.some.inj hu
      obtain rfl := Option.some.inj hv
      exact longer_with_path (length_path_of hne hspaces caret "file" rest) _ _
    rename_i hdrive
    rw [if_neg hdrive] at hv
    split at hu
    · rename_i hempty
      rw [if_pos hempty] at hv
      obtain rfl := Option.some.inj hu
      obtain rfl := Option.some.inj hv
      exact longer_with_path hlonger _ _
    · rename_i hempty
      rw [if_neg hempty] at hv
      obtain ⟨_, _, rfl⟩ := Option.map_eq_some_iff.mp hu
      obtain ⟨_, _, rfl⟩ := Option.map_eq_some_iff.mp hv
      exact longer_with_path hlonger _ _
  · have hlast := getLast?_append_spaces hne hspaces rest
    have hdrive : is_drive_letter (rest ++ spaces) = false := by
      generalize rest ++ spaces = buffer at hlast
      obtain _ | ⟨a, _ | ⟨b, _ | _⟩⟩ := buffer
      · rfl
      · rfl
      · obtain rfl : b = ' ' := by simpa using hlast
        simp [is_drive_letter]
      · rfl
    have hempty : (rest ++ spaces).isEmpty = false := by simp [hne]
    rw [hall, hdrive, hempty, host_parse_spaces hne hspaces hdomain] at hv
    cases hv

omit hdomain in
/-- A state that looks at one character and goes on after it, or takes what
there is for the path. -/
theorem branch_spaces {state after_slash : List Char → Option Url} {with_rest : List Char → Url} {p : Char → Prop}
    [DecidablePred p] (hnil : state [] = some (with_rest []))
    (hcons : ∀ c after, state (c :: after) = if p c then after_slash after else some (with_rest (c :: after)))
    (hspace : ¬ p ' ')
    (hafter : ∀ {after u v}, after_slash after = some u → after_slash (after ++ spaces) = some v → Longer u v)
    (hrest : ∀ rest, Longer (with_rest rest) (with_rest (rest ++ spaces))) {rest : List Char} {u v : Url}
    (hu : state rest = some u) (hv : state (rest ++ spaces) = some v) : Longer u v := by
  have hlonger := hrest rest
  cases rest with
  | nil =>
    obtain ⟨space, others, rfl⟩ := List.exists_cons_of_ne_nil hne
    obtain rfl := hspaces space (List.mem_cons_self ..)
    rw [List.nil_append, hcons, if_neg hspace] at hv
    rw [hnil] at hu
    obtain rfl := Option.some.inj hu
    obtain rfl := Option.some.inj hv
    exact hlonger
  | cons c after =>
    rw [List.cons_append, hcons] at hv
    rw [hcons] at hu
    split at hu
    · rename_i hslash
      rw [if_pos hslash] at hv
      exact hafter hu hv
    · rename_i hslash
      rw [if_neg hslash] at hv
      obtain rfl := Option.some.inj hu
      obtain rfl := Option.some.inj hv
      exact hlonger

theorem file_slash_state_spaces {rest : List Char} {u v : Url} (hu : file_slash_state caret domain ipv6 rest = some u)
    (hv : file_slash_state caret domain ipv6 (rest ++ spaces) = some v) : Longer u v :=
  branch_spaces hne hspaces rfl (fun _ _ => rfl) (by decide) (file_host_state_spaces hne hspaces hdomain)
    (longer_file_url hne hspaces caret) hu hv

theorem file_state_spaces {rest : List Char} {u v : Url} (hu : file_state caret domain ipv6 rest = some u)
    (hv : file_state caret domain ipv6 (rest ++ spaces) = some v) : Longer u v :=
  branch_spaces hne hspaces rfl (fun _ _ => rfl) (by decide) (file_slash_state_spaces hne hspaces hdomain)
    (longer_file_url hne hspaces caret) hu hv

theorem path_or_authority_state_spaces {scheme : String} {rest : List Char} {u v : Url}
    (hu : path_or_authority_state caret domain ipv6 scheme rest = some u)
    (hv : path_or_authority_state caret domain ipv6 scheme (rest ++ spaces) = some v) : Longer u v :=
  branch_spaces hne hspaces rfl (fun _ _ => rfl) (by decide) (from_authority_spaces hne hspaces hdomain)
    (fun rest => longer_with_path (length_path_of hne hspaces caret scheme rest) _ _) hu hv

/-- Spaces behind what stands before a query make the path longer, if the text
is a URL still. -/
theorem after_scheme_spaces {scheme : String} {rest : List Char} {u v : Url}
    (hu : after_scheme caret domain ipv6 scheme false rest = some u)
    (hv : after_scheme caret domain ipv6 scheme true (rest ++ spaces) = some v) : Longer u v := by
  unfold after_scheme at hu hv
  split at hu
  · rename_i hfile
    rw [if_pos hfile] at hv
    exact file_state_spaces hne hspaces hdomain hu hv
  rename_i hfile
  rw [if_neg hfile] at hv
  split at hu
  · rename_i hspecial
    have hkept : spaces.dropWhile is_slash = spaces := by
      obtain ⟨space, others, rfl⟩ := List.exists_cons_of_ne_nil hne
      obtain rfl := hspaces space (List.mem_cons_self ..)
      rfl
    have hdrop : (rest ++ spaces).dropWhile is_slash = rest.dropWhile is_slash ++ spaces := by
      rw [List.dropWhile_append, hkept]
      split
      · rename_i hempty
        rw [List.isEmpty_iff.mp hempty, List.nil_append]
      · rfl
    rw [if_pos hspecial, hdrop] at hv
    exact from_authority_spaces hne hspaces hdomain hu hv
  rename_i hspecial
  rw [if_neg hspecial] at hv
  have hhead : (rest ++ spaces).head? = some '/' ↔ rest.head? = some '/' := by
    cases rest with
    | nil =>
      obtain ⟨space, others, rfl⟩ := List.exists_cons_of_ne_nil hne
      obtain rfl := hspaces space (List.mem_cons_self ..)
      simp
    | cons c rest => rfl
  split at hu
  · rename_i hslash
    obtain ⟨after, rfl⟩ := List.head?_eq_some_iff.mp hslash
    rw [if_pos (hhead.mpr hslash)] at hv
    exact path_or_authority_state_spaces hne hspaces hdomain hu hv
  · rename_i hslash
    rw [if_neg (fun h => hslash (hhead.mp h))] at hv
    obtain rfl := Option.some.inj hu
    obtain rfl := Option.some.inj hv
    refine longer_with_path ?_ _ _
    have hlast : spaces = spaces.dropLast ++ [' '] := by
      rw [← hspaces _ (List.getLast_mem hne), List.dropLast_append_getLast hne]
    have hlength : (encode c0_control_set rest ++ encode c0_control_set spaces.dropLast).length =
        (encode c0_control_set rest).length + (encode c0_control_set spaces.dropLast).length := List.length_append
    rw [hlast, ← List.append_assoc, opaque_path_state_space, opaque_path_state_of_getLast? (.inl rfl), encode_append,
      List.length_append, hlength, List.length_cons]
    omega

end absolute

end

/-! URLs. -/

theorem scheme_of_append {text rest : List Char} {scheme : String} (h : scheme_of text = some (scheme, rest))
    (behind : List Char) : scheme_of (text ++ behind) = some (scheme, rest ++ behind) := by
  cases text with
  | nil => cases h
  | cons c text =>
    simp only [scheme_of] at h
    split at h
    · cases h
    rename_i halpha
    split at h
    · rename_i after hdrop
      cases h
      have hall : ∀ d ∈ (c :: text).takeWhile scheme_char, scheme_char d = true :=
        List.all_eq_true.mp List.all_takeWhile
      have hsplit : c :: text = (c :: text).takeWhile scheme_char ++ ':' :: rest := by
        rw [← hdrop, List.takeWhile_append_dropWhile]
      have hcolon : scheme_char ':' = false := by decide
      have hlong : c :: (text ++ behind) = (c :: text).takeWhile scheme_char ++ ':' :: (rest ++ behind) :=
        (congrArg (· ++ behind) hsplit).trans (List.append_assoc ..)
      simp only [List.cons_append, scheme_of, halpha]
      rw [hlong, List.dropWhile_append_of_pos hall, List.takeWhile_append_of_pos hall]
      simp [hcolon]
    · cases h

section

variable {caret : Bool} {domain ipv6 : List Char → Option Host} {text : List Char} {u v : Url}

theorem absolute.after_scheme_more {scheme : String} {rest : List Char} (h : rest.getLast? ≠ some ' ') (more : Bool) :
    after_scheme caret domain ipv6 scheme more rest = after_scheme caret domain ipv6 scheme false rest := by
  unfold after_scheme
  rw [opaque_path_state_of_getLast? (.inr h), opaque_path_state_of_getLast? (.inl rfl)]

/-- A text is a URL by what stands after its scheme. -/
theorem parse_stripped_eq_some : parse_stripped caret domain ipv6 text = some u ↔
    ∃ scheme rest url, scheme_of text = some (scheme, rest) ∧
      absolute.after_scheme caret domain ipv6 scheme
        ((cut '?' (cut '#' rest).1).2.isSome || (cut '#' rest).2.isSome) (cut '?' (cut '#' rest).1).1 = some url ∧
      with_query url (cut '?' (cut '#' rest).1).2 (cut '#' rest).2 = u := by
  unfold parse_stripped
  cases hscheme : scheme_of text with
  | none => simp
  | some found =>
    obtain ⟨scheme, rest⟩ := found
    simp only [Option.map_eq_some_iff]
    constructor
    · rintro ⟨url, hurl, rfl⟩
      exact ⟨scheme, rest, url, rfl, hurl, rfl⟩
    · rintro ⟨_, _, url, heq, hurl, rfl⟩
      cases heq
      exact ⟨url, hurl, rfl⟩

/-- What stands before the `:` of the scheme is of the scheme. -/
theorem split_of_scheme_of {rest : List Char} {scheme : String} (h : scheme_of text = some (scheme, rest)) :
    ∃ front, text = front ++ ':' :: rest ∧ '#' ∉ front ∧ '?' ∉ front := by
  cases text with
  | nil => cases h
  | cons c text =>
    simp only [scheme_of] at h
    split at h
    · cases h
    split at h
    · rename_i after hdrop
      cases h
      have hall : ∀ d ∈ (c :: text).takeWhile scheme_char, scheme_char d = true :=
        List.all_eq_true.mp List.all_takeWhile
      refine ⟨(c :: text).takeWhile scheme_char, by rw [← hdrop, List.takeWhile_append_dropWhile], fun hmem => ?_,
        fun hmem => ?_⟩
      · exact absurd (hall _ hmem) (by decide)
      · exact absurd (hall _ hmem) (by decide)
    · cases h

/-- A query behind a URL that has none. -/
theorem parse_stripped_query (h : parse_stripped caret domain ipv6 text = some u) (hhash : '#' ∉ text) (hmark : '?' ∉ text)
    (hlast : text.getLast? ≠ some ' ') {added : List Char} (hadded : '#' ∉ added) :
    u.query = none ∧ parse_stripped caret domain ipv6 (text ++ '?' :: added) =
      some { u with query := some (String.ofList (encode (query_set_of u.scheme) added)) } := by
  obtain ⟨scheme, rest, url, hscheme, hurl, rfl⟩ := parse_stripped_eq_some.mp h
  obtain ⟨front, rfl, _, _⟩ := split_of_scheme_of hscheme
  simp only [List.mem_append, List.mem_cons, not_or] at hhash hmark
  have hrest : rest.getLast? ≠ some ' ' := by
    cases rest with
    | nil => simp
    | cons c rest => simpa using hlast
  have hhash' : '#' ∉ rest ++ '?' :: added := by simp [hhash.2.2, hadded]
  rw [cut_of_notMem hhash.2.2, cut_of_notMem hmark.2.2] at hurl ⊢
  refine ⟨rfl, parse_stripped_eq_some.mpr ⟨scheme, _, url, scheme_of_append hscheme _, ?_, ?_⟩⟩
  · rw [cut_of_notMem hhash', cut_append_cons hmark.2.2, absolute.after_scheme_more hrest]
    exact hurl
  · rw [cut_of_notMem hhash', cut_append_cons hmark.2.2]
    rfl

/-- More of the query of a URL. -/
theorem parse_stripped_query_append (h : parse_stripped caret domain ipv6 text = some u) (hhash : '#' ∉ text)
    (hmark : '?' ∈ text) {behind : List Char} (hbehind : '#' ∉ behind) :
    ∃ query, u.query = some query ∧ parse_stripped caret domain ipv6 (text ++ behind) =
      some { u with query := some (query ++ String.ofList (encode (query_set_of u.scheme) behind)) } := by
  obtain ⟨scheme, rest, url, hscheme, hurl, rfl⟩ := parse_stripped_eq_some.mp h
  obtain ⟨front, rfl, _, hfront⟩ := split_of_scheme_of hscheme
  simp only [List.mem_append, List.mem_cons, not_or] at hhash
  have hmem : '?' ∈ rest := by
    simpa [hfront] using hmark
  obtain ⟨before, query, rfl, hbefore, hcut⟩ := cut_of_mem hmem
  have hhash' : '#' ∉ before ++ '?' :: query ++ behind := by
    have hrest := hhash.2.2
    simp only [List.mem_append, not_or] at hrest ⊢
    exact ⟨hrest, hbehind⟩
  have hcut' : cut '?' (before ++ '?' :: query ++ behind) = (before, some (query ++ behind)) := by
    rw [List.append_assoc, List.cons_append, cut_append_cons hbefore]
  rw [cut_of_notMem hhash.2.2, hcut] at hurl ⊢
  refine ⟨_, rfl, parse_stripped_eq_some.mpr ⟨scheme, _, url, scheme_of_append hscheme _, ?_, ?_⟩⟩
  · rw [cut_of_notMem hhash', hcut']
    exact hurl
  · rw [cut_of_notMem hhash', hcut']
    simp [with_query, encode_append, String.ofList_append]

/-- What stands behind a fragment is of the fragment. -/
theorem fragment_of_parse_stripped (hu : parse_stripped caret domain ipv6 text = some u) (hhash : '#' ∈ text)
    {behind : List Char} (hne : behind ≠ []) (hv : parse_stripped caret domain ipv6 (text ++ behind) = some v) :
    v.fragment ≠ u.fragment := by
  obtain ⟨scheme, rest, url, hscheme, hurl, rfl⟩ := parse_stripped_eq_some.mp hu
  obtain ⟨front, rfl, hfront, _⟩ := split_of_scheme_of hscheme
  have hmem : '#' ∈ rest := by
    simpa [hfront] using hhash
  obtain ⟨before, fragment, rfl, hbefore, hcut⟩ := cut_of_mem hmem
  obtain ⟨scheme', rest', url', hscheme', _, rfl⟩ := parse_stripped_eq_some.mp hv
  obtain ⟨rfl, rfl⟩ : scheme = scheme' ∧ before ++ '#' :: fragment ++ behind = rest' := by
    rw [scheme_of_append hscheme] at hscheme'
    simpa using hscheme'
  rw [hcut, List.append_assoc, List.cons_append, cut_append_cons hbefore]
  have hlonger := length_encode_append fragment_set fragment hne
  intro heq
  have hsame : String.ofList (encode fragment_set (fragment ++ behind)) = String.ofList (encode fragment_set fragment) := by
    simpa [with_query] using heq
  rw [String.ofList_injective hsame] at hlonger
  exact Nat.lt_irrefl _ hlonger

/-- Spaces that come before a query make the path longer. -/
theorem path_of_parse_stripped (hdomain : ∀ text, ' ' ∈ text → domain text = none)
    (hu : parse_stripped caret domain ipv6 text = some u) (hhash : '#' ∉ text) (hmark : '?' ∉ text) {spaces : List Char}
    (hne : spaces ≠ []) (hspaces : ∀ c ∈ spaces, c = ' ') {added : List Char} (hadded : '#' ∉ added)
    (hv : parse_stripped caret domain ipv6 (text ++ (spaces ++ '?' :: added)) = some v) : v.path ≠ u.path := by
  obtain ⟨scheme, rest, url, hscheme, hurl, rfl⟩ := parse_stripped_eq_some.mp hu
  obtain ⟨scheme', rest', url', hscheme', hurl', rfl⟩ := parse_stripped_eq_some.mp hv
  obtain ⟨rfl, rfl⟩ : scheme = scheme' ∧ rest ++ (spaces ++ '?' :: added) = rest' := by
    rw [scheme_of_append hscheme] at hscheme'
    simpa using hscheme'
  obtain ⟨front, rfl, _, _⟩ := split_of_scheme_of hscheme
  simp only [List.mem_append, List.mem_cons, not_or] at hhash hmark
  have hnone : ∀ d, d ≠ ' ' → d ∉ spaces := fun d hd hmem => hd (hspaces d hmem)
  have hmark' : '?' ∉ rest ++ spaces := by
    simp [hmark.2.2, hnone '?' (by decide)]
  have hhash' : '#' ∉ rest ++ (spaces ++ '?' :: added) := by
    simp [hhash.2.2, hnone '#' (by decide), hadded]
  rw [cut_of_notMem hhash.2.2, cut_of_notMem hmark.2.2] at hurl
  rw [cut_of_notMem hhash', ← List.append_assoc, cut_append_cons hmark'] at hurl'
  have hlonger := absolute.after_scheme_spaces hne hspaces hdomain hurl hurl'
  intro heq
  rw [absolute.Longer, show url'.path = url.path from heq] at hlonger
  exact Nat.lt_irrefl _ hlonger

end

/-! What is stripped. -/

/-- What is stripped from the end of a text. -/
def trailing (input : String) : List Char := (input.toList.reverse.takeWhile is_c0_control_or_space).reverse

/-- A text that is not all stripped: what goes, what stays up to its last
character, and what goes behind that. -/
structure Stripped (text lead kept : List Char) (last : Char) (tail : List Char) : Prop where
  split : text = lead ++ (kept ++ last :: tail)
  lead : ∀ c ∈ lead, is_c0_control_or_space c = true
  first : ∀ c ∈ (kept ++ [last]).head?, is_c0_control_or_space c = false
  last : is_c0_control_or_space last = false
  tail : ∀ c ∈ tail, is_c0_control_or_space c = true

theorem exists_last {p : Char → Bool} {text : List Char} (h : ∃ c ∈ text, p c = false) :
    ∃ kept last tail, text = kept ++ last :: tail ∧ p last = false ∧ ∀ c ∈ tail, p c = true := by
  induction text with
  | nil => simp at h
  | cons c rest ih =>
    by_cases hrest : ∃ d ∈ rest, p d = false
    · obtain ⟨kept, last, tail, rfl, hlast, htail⟩ := ih hrest
      exact ⟨c :: kept, last, tail, rfl, hlast, htail⟩
    · have htail : ∀ d ∈ rest, p d = true := fun d hd => by
        by_contra hnot
        exact hrest ⟨d, hd, by simpa using hnot⟩
      obtain ⟨d, hd, hnot⟩ := h
      obtain rfl | hd := List.mem_cons.mp hd
      · exact ⟨[], d, rest, rfl, hnot, htail⟩
      · exact absurd (htail d hd) (by simp [hnot])

theorem exists_stripped {text : List Char} (h : ∃ c ∈ text, is_c0_control_or_space c = false) :
    ∃ lead kept last tail, Stripped text lead kept last tail := by
  obtain ⟨c, hc, hnot⟩ := h
  have hlead : ∀ d ∈ text.takeWhile is_c0_control_or_space, is_c0_control_or_space d = true :=
    List.all_eq_true.mp List.all_takeWhile
  have hsplit : text.takeWhile is_c0_control_or_space ++ text.dropWhile is_c0_control_or_space = text :=
    List.takeWhile_append_dropWhile
  have hmem : c ∈ text.dropWhile is_c0_control_or_space := by
    rw [← hsplit] at hc
    obtain hlost | hstay := List.mem_append.mp hc
    · rw [hlead c hlost] at hnot
      cases hnot
    · exact hstay
  have hne := List.ne_nil_of_mem hmem
  have hhead := List.head_dropWhile_not is_c0_control_or_space hne
  obtain ⟨kept, last, tail, hfront, hlast, htail⟩ := exists_last ⟨c, hmem, hnot⟩
  refine ⟨_, kept, last, tail, ⟨by rw [← hfront, hsplit], hlead, fun d hd => ?_, hlast, htail⟩⟩
  cases kept with
  | nil =>
    obtain rfl : last = d := by simpa using hd
    exact hlast
  | cons first kept =>
    obtain rfl : first = d := by simpa using hd
    simpa [hfront] using hhead

theorem Stripped.trim {input : String} {lead kept tail : List Char} {last : Char}
    (h : Stripped input.toList lead kept last tail) :
    (text.trim_matches is_c0_control_or_space input).toList = kept ++ [last] ∧ trailing input = tail := by
  have hfront : input.toList.dropWhile is_c0_control_or_space = kept ++ last :: tail := by
    rw [h.split, List.dropWhile_append_of_pos h.lead]
    cases kept with
    | nil => exact List.dropWhile_cons_of_neg (by simp [h.last])
    | cons first kept => exact List.dropWhile_cons_of_neg (by simp [h.first first rfl])
  have htail : ∀ c ∈ tail.reverse, is_c0_control_or_space c = true := fun c hc => h.tail c (List.mem_reverse.mp hc)
  constructor
  · rw [text.trim_matches, hfront, String.toList_ofList, List.reverse_append, List.reverse_cons, List.append_assoc,
      List.dropWhile_append_of_pos htail, List.singleton_append, List.dropWhile_cons_of_neg (by simp [h.last])]
    simp
  · rw [trailing, h.split, List.reverse_append, List.reverse_append, List.reverse_cons, List.append_assoc,
      List.append_assoc, List.takeWhile_append_of_pos htail, List.singleton_append,
      List.takeWhile_cons_of_neg (by simp [h.last]), List.append_nil, List.reverse_reverse]

theorem exists_of_preprocess {input : String} (h : preprocess input ≠ []) :
    ∃ lead kept last tail, Stripped input.toList lead kept last tail := by
  refine exists_stripped ?_
  by_contra hall
  have hlost : ∀ c ∈ input.toList, is_c0_control_or_space c = true := fun c hc => by
    by_contra hnot
    exact hall ⟨c, hc, by simpa using hnot⟩
  have hnil := List.dropWhile_eq_nil_iff.mpr hlost
  rw [preprocess, text.trim_matches, hnil] at h
  exact h rfl

theorem Stripped.preprocess {input : String} {lead kept tail : List Char} {last : Char}
    (h : Stripped input.toList lead kept last tail) :
    preprocess input = kept.filter (fun c => !is_tab_or_newline c) ++ [last] := by
  rw [whatwg.preprocess, h.trim.1, List.filter_append]
  simp [not_tab_or_newline h.last]

/-- A character that is stripped nowhere. -/
theorem mem_preprocess {input : String} {c : Char} (hc : is_c0_control_or_space c = false) (h : c ∈ input.toList) :
    c ∈ preprocess input := by
  obtain ⟨lead, kept, last, tail, hstripped⟩ := exists_stripped ⟨c, h, hc⟩
  rw [hstripped.split] at h
  rw [hstripped.preprocess]
  simp only [List.mem_append, List.mem_cons] at h
  obtain hlead | hkept | rfl | htail := h
  · rw [hstripped.lead c hlead] at hc
    cases hc
  · refine List.mem_append_left _ (List.mem_filter.mpr ⟨hkept, ?_⟩)
    simp [not_tab_or_newline hc]
  · simp
  · rw [hstripped.tail c htail] at hc
    cases hc

theorem mem_of_mem_preprocess {input : String} {c : Char} (h : c ∈ preprocess input) : c ∈ input.toList := by
  obtain ⟨lead, kept, last, tail, hstripped⟩ := exists_of_preprocess (List.ne_nil_of_mem h)
  rw [hstripped.preprocess] at h
  rw [hstripped.split]
  obtain hkept | hlast := List.mem_append.mp h
  · simp [(List.mem_filter.mp hkept).1]
  · simp [List.mem_singleton.mp hlast]

theorem getLast?_preprocess (input : String) : (preprocess input).getLast? ≠ some ' ' := by
  by_cases hne : preprocess input = []
  · simp [hne]
  · obtain ⟨lead, kept, last, tail, hstripped⟩ := exists_of_preprocess hne
    rw [hstripped.preprocess, List.getLast?_concat]
    intro heq
    have hlast := hstripped.last
    rw [Option.some.inj heq] at hlast
    exact absurd hlast (by decide)

/-- What was stripped from the end before stands inside now. -/
theorem preprocess_append {input behind : String} (hne : preprocess input ≠ []) {c : Char}
    (hlast : behind.toList.getLast? = some c) (hc : is_c0_control_or_space c = false)
    (hbehind : ∀ d ∈ behind.toList, is_tab_or_newline d = false) :
    preprocess (input ++ behind) =
      preprocess input ++ ((trailing input).filter (fun d => !is_tab_or_newline d) ++ behind.toList) := by
  obtain ⟨lead, kept, last, tail, hstripped⟩ := exists_of_preprocess hne
  obtain ⟨init, hinit⟩ := List.getLast?_eq_some_iff.mp hlast
  have hboth : Stripped (input ++ behind).toList lead (kept ++ last :: tail ++ init) c [] := by
    refine ⟨?_, hstripped.lead, fun d hd => ?_, hc, by simp⟩
    · rw [String.toList_append, hstripped.split, hinit]
      simp
    · refine hstripped.first d ?_
      cases kept with
      | nil => exact hd
      | cons first kept => exact hd
  have hfilter : init.filter (fun d => !is_tab_or_newline d) = init :=
    List.filter_eq_self.mpr fun d hd => by simp [hbehind d (hinit ▸ List.mem_append_left _ hd)]
  rw [hboth.preprocess, hstripped.preprocess, hstripped.trim.2, hinit, List.filter_append, List.filter_append, hfilter,
    List.filter_cons_of_pos (by simp [not_tab_or_newline hstripped.last])]
  simp

end whatwg
