import Api2Mcp.Http.Redact
import Mathlib.Data.List.Forall2

namespace api2mcp.http

open net

/-- A word of a text: not empty, and without white space. -/
structure Word (w : List Char) : Prop where
  nonempty : w ≠ []
  spaceless : ∀ c ∈ w, is_whitespace c = false

theorem word_iff {w : List Char} : Word w ↔ w ≠ [] ∧ ∀ c ∈ w, is_whitespace c = false :=
  ⟨fun h => ⟨h.nonempty, h.spaceless⟩, fun h => ⟨h.1, h.2⟩⟩

theorem words_append {w word : List Char} (hw : ∀ c ∈ w, is_whitespace c = false) (rest : List Char) :
    words word (w ++ rest) = words (w.reverse ++ word) rest := by
  induction w generalizing word with
  | nil => rfl
  | cons c w ih =>
    obtain ⟨hc, hw⟩ := List.forall_mem_cons.mp hw
    rw [List.cons_append, words, hc, if_neg Bool.false_ne_true, ih hw]
    simp

theorem words_of_begun {word : List Char} (hne : word ≠ []) (rest : List Char) :
    ∃ w ws, words word rest = (word.reverse ++ w) :: ws := by
  have hempty : word.isEmpty = false := by simpa using hne
  induction rest generalizing word with
  | nil => exact ⟨[], [], by rw [words, hempty, List.append_nil]; rfl⟩
  | cons c rest ih =>
    rw [words, hempty]
    split
    · exact ⟨[], words [] rest, by rw [List.append_nil]; rfl⟩
    · obtain ⟨w, ws, h⟩ := ih (List.cons_ne_nil c word) rfl
      exact ⟨c :: w, ws, by rw [h, List.reverse_cons, List.append_assoc, List.singleton_append]⟩

/-- Words that are joined by single spaces are read back. -/
theorem words_intercalate {ws : List (List Char)} (hws : ∀ w ∈ ws, Word w) :
    words [] ([' '].intercalate ws) = ws := by
  induction ws with
  | nil => rfl
  | cons w ws ih =>
    obtain ⟨hw, hrest⟩ := List.forall_mem_cons.mp hws
    have hne : w.reverse.isEmpty = false := by simpa using hw.nonempty
    cases ws with
    | nil =>
      have hread : words [] (w ++ []) = words (w.reverse ++ []) [] := words_append hw.spaceless []
      rw [List.append_nil, List.append_nil] at hread
      rw [List.intercalate_singleton, hread, words, hne, List.reverse_reverse]
      rfl
    | cons v vs =>
      have hspace : is_whitespace ' ' = true := by decide
      rw [List.intercalate_cons_cons, List.append_assoc, words_append hw.spaceless, List.append_nil,
        List.singleton_append, words, hspace, if_pos rfl, hne, List.reverse_reverse, ih hrest]
      rfl

/-- A URL without its userinfo, query and fragment. -/
def bare (url : Url) : Url := { url with username := "", password := none, query := none, fragment := none }

/-- A word that is an http or https URL. -/
def UrlWord (crate : UrlCrate) (word : String) (url : Url) : Prop :=
  crate.parse word = .ok url ∧ (url.scheme = "http" ∨ url.scheme = "https")

/-- What stands for a word of a text: for a URL the rest of it, for any other
word the word. -/
inductive Redacts (crate : UrlCrate) (word : String) : String → Prop
  | url {url : Url} : UrlWord crate word url → Redacts crate word (bare url).to_string
  | other : (∀ url, ¬ UrlWord crate word url) → Redacts crate word word

/-- The words are the same, but for the userinfo, the query and the fragment of
a URL. -/
inductive Alike (crate : UrlCrate) : String → String → Prop
  | url {word word' : String} {url url' : Url} : UrlWord crate word url → UrlWord crate word' url' →
      bare url = bare url' → Alike crate word word'
  | same (word : String) : Alike crate word word

variable {crate : UrlCrate}

/-- What `redact_message` does with a word. -/
def redact_word (crate : UrlCrate) (word : String) : String :=
  match crate.parse word with
  | .ok url => if url.scheme = "http" || url.scheme = "https" then redact_url url else word
  | .error _ => word

theorem redact_message_eq (message : String) :
    redact_message crate message =
      " ".intercalate ((split_whitespace message).map (redact_word crate)) := rfl

theorem redact_word_of_url {word : String} {url : Url} (h : UrlWord crate word url) :
    redact_word crate word = (bare url).to_string := by
  obtain ⟨hparse, hscheme⟩ := h
  unfold redact_word
  rw [hparse]
  dsimp only
  rw [if_pos (by simpa using hscheme)]
  rfl

theorem redact_word_of_other {word : String} (h : ∀ url, ¬ UrlWord crate word url) :
    redact_word crate word = word := by
  unfold redact_word
  split
  · rename_i url hparse
    rw [if_neg]
    intro hscheme
    exact h url ⟨hparse, by simpa using hscheme⟩
  · rfl

theorem redacts_word (word : String) : Redacts crate word (redact_word crate word) := by
  by_cases h : ∃ url, UrlWord crate word url
  · obtain ⟨url, hurl⟩ := h
    rw [redact_word_of_url hurl]
    exact .url hurl
  · rw [not_exists] at h
    rw [redact_word_of_other h]
    exact .other h

/-- A redacted text begins as the text does, or with the scheme of a URL. -/
theorem redact_message_begins {p : List Char} (hp : Word p) {message : String} (h : p <+: message.toList) :
    p <+: (redact_message crate message).toList ∨ ['h'] <+: (redact_message crate message).toList := by
  obtain ⟨rest, hrest⟩ := h
  obtain ⟨w, ws, hwords⟩ := words_of_begun (List.reverse_ne_nil_iff.mpr hp.nonempty) rest
  have hsplit : split_whitespace message = String.ofList (p ++ w) :: ws.map String.ofList := by
    rw [split_whitespace, ← hrest, words_append hp.spaceless, List.append_nil, hwords,
      List.reverse_reverse, List.map_cons]
  have hbegins : (redact_word crate (String.ofList (p ++ w))).toList <+: (redact_message crate message).toList := by
    rw [redact_message_eq, hsplit, List.map_cons, String.toList_intercalate, List.map_cons]
    cases hws : List.map String.toList (List.map (redact_word crate) (ws.map String.ofList)) with
    | nil =>
      simp only [List.intercalate_singleton, List.prefix_rfl]
    | cons v vs =>
      rw [List.intercalate_cons_cons, List.append_assoc]
      exact List.prefix_append _ _
  have hredacts := @redacts_word crate (String.ofList (p ++ w))
  generalize redact_word crate (String.ofList (p ++ w)) = out at hbegins hredacts
  cases hredacts with
  | @url url hurl =>
    right
    have hscheme : ['h'] <+: url.scheme.toList := by
      obtain h | h := hurl.2
      · rw [h]
        exact ⟨"ttp".toList, rfl⟩
      · rw [h]
        exact ⟨"ttps".toList, rfl⟩
    have htext : url.scheme.toList <+: (bare url).to_string.toList := by
      simp only [Url.to_string, String.toList_append, List.append_assoc]
      exact List.prefix_append _ _
    exact (hscheme.trans htext).trans hbegins
  | other =>
    left
    rw [String.toList_ofList] at hbegins
    exact (List.prefix_append p w).trans hbegins
end api2mcp.http
