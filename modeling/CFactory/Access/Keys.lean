import CFactory.Base.Dict
import CFactory.Base.Trimmed
import CFactory.Status.Substring

/-!
# API keys

`auth.py:83–117`. The keys a deployment configures as one text, and what a presented key is
allowed. A comparison in constant time is defined for ASCII texts alone and raises for others.
The warning about a key that is not shaped like the fleet's is left out: it changes nothing.
-/

namespace CFactory.Access

open CFactory.Base
open CFactory.Status

/-- The scopes the surface asks for; `READ`, `WRITE`; `auth.py:31–32`. -/
inductive Scope where
  | read
  | write
  deriving DecidableEq, Repr

/-- The word of a scope. -/
def Scope.text : Scope → String
  | .read => "read"
  | .write => "write"

/-- The configured keys, each with its scopes. A key may carry words that are no scope. -/
abbrev Keys := Dict String (List String)

/-! ## The configuration text -/

/-- The comma-separated scopes of an entry; `auth.py:102`. -/
def parseScopes (part : List Char) : List String := (parts isSpace ',' part).map String.ofList

/-- One entry between semicolons; `auth.py:95–102`. -/
def parseEntry (raw : List Char) : Option (String × List String) :=
  let entry := trim isSpace raw
  let key := trim isSpace (partition ':' entry).1
  if key = [] then none
  else some (String.ofList key, parseScopes (partition ':' entry).2)

/-- An entry's key takes its scopes, in the place of an earlier entry of the same key. -/
def storeEntry (keys : Keys) (raw : List Char) : Keys :=
  match parseEntry raw with
  | none => keys
  | some (key, scopes) => keys.set key scopes

/-- `parse_api_keys`; `auth.py:83–117`. -/
def parseApiKeys (raw : Option String) : Keys :=
  ((raw.getD "").toList.splitOn ';').foldl storeEntry .empty

/-- An entry as the configuration spells it. -/
def renderEntry (e : String × List String) : List Char :=
  e.1.toList ++ ':' :: join ',' (e.2.map String.toList)

/-- The configuration text of a set of keys. -/
def renderKeys (keys : Keys) : String :=
  String.ofList (join ';' (keys.entries.map renderEntry))

/-- What the configuration text can spell: a trimmed key without its delimiters, and trimmed
scopes without theirs. -/
structure Spelled (e : String × List String) : Prop where
  key : Part isSpace ':' e.1.toList
  plain : ';' ∉ e.1.toList
  scopes : ∀ scope ∈ e.2, Part isSpace ',' scope.toList ∧ ';' ∉ scope.toList

/-- What an entry is read as can be spelled. -/
theorem spelled_of_parseEntry {raw : List Char} (hraw : ';' ∉ raw) {e : String × List String}
    (h : parseEntry raw = some e) : Spelled e := by
  rw [parseEntry] at h
  split at h
  · cases h
  · next hne =>
    cases h
    have hentry : ∀ c ∈ trim isSpace raw, c ≠ ';' := by
      rintro c hc rfl
      exact hraw (mem_of_mem_trim hc)
    refine ⟨⟨?_, ?_, ?_⟩, ?_, fun scope hscope ↦ ?_⟩
    · rw [String.toList_ofList]
      exact trimmed_trim _ _
    · rw [String.toList_ofList]
      exact hne
    · rw [String.toList_ofList]
      exact fun hmem ↦ not_mem_partition _ _ (mem_of_mem_trim hmem)
    · rw [String.toList_ofList]
      exact fun hmem ↦ hentry _ (mem_of_mem_partition (.inl (mem_of_mem_trim hmem))) rfl
    · obtain ⟨part, hpart, rfl⟩ := List.mem_map.mp hscope
      rw [String.toList_ofList]
      exact ⟨part_of_mem_parts hpart, fun hmem ↦
        hentry _ (mem_of_mem_partition (.inr (mem_of_mem_parts hpart _ hmem))) rfl⟩

/-- Every configured key can be spelled. -/
theorem spelled_parseApiKeys (raw : Option String) :
    ∀ e ∈ (parseApiKeys raw).entries, Spelled e := by
  rw [parseApiKeys]
  have hraw : ∀ part ∈ (raw.getD "").toList.splitOn ';', ';' ∉ part :=
    fun part hpart ↦ not_mem_splitOn hpart
  revert hraw
  generalize (raw.getD "").toList.splitOn ';' = texts
  induction texts using List.reverseRecOn with
  | nil => exact fun _ e he ↦ absurd he List.not_mem_nil
  | append_singleton texts text ih =>
    intro hraw e he
    rw [List.foldl_append, List.foldl_cons, List.foldl_nil, storeEntry] at he
    have hfront := ih fun part hpart ↦ hraw part (List.mem_append_left _ hpart)
    split at he
    · exact hfront e he
    · next key scopes hparse =>
      rcases Dict.mem_entries_set he with rfl | he
      · exact spelled_of_parseEntry (hraw text (by simp)) hparse
      · exact hfront e he

private theorem isSpace_colon : isSpace ':' = false := by decide

private theorem isSpace_comma : isSpace ',' = false := by decide

/-- What can be spelled is read back from its entry. -/
theorem parseEntry_render {e : String × List String} (h : Spelled e) :
    parseEntry (renderEntry e) = some e := by
  have hscopes : Trimmed isSpace (join ',' (e.2.map String.toList)) := by
    refine trimmed_join isSpace_comma fun w hw ↦ ?_
    obtain ⟨scope, hscope, rfl⟩ := List.mem_map.mp hw
    exact (h.scopes scope hscope).1.trimmed
  have htrim : trim isSpace (renderEntry e) = renderEntry e :=
    (h.key.trimmed.append hscopes isSpace_colon).trim_eq
  have hparts : parts isSpace ',' (join ',' (e.2.map String.toList)) = e.2.map String.toList := by
    refine parts_join fun w hw ↦ ?_
    obtain ⟨scope, hscope, rfl⟩ := List.mem_map.mp hw
    exact (h.scopes scope hscope).1
  have hround : (e.2.map String.toList).map String.ofList = e.2 := by
    rw [List.map_map]
    calc e.2.map (String.ofList ∘ String.toList) = e.2.map id :=
          List.map_congr_left fun s _ ↦ String.ofList_toList
      _ = e.2 := List.map_id _
  rw [parseEntry]
  simp only [htrim]
  rw [renderEntry, partition_append h.key.plain]
  simp only [h.key.trimmed.trim_eq]
  rw [if_neg h.key.nonempty, String.ofList_toList, parseScopes, hparts, hround]

/-- What can be spelled is read back from its text. -/
theorem parse_render {keys : Keys} (h : ∀ e ∈ keys.entries, Spelled e) :
    parseApiKeys (some (renderKeys keys)) = keys := by
  have hplain : ∀ l ∈ keys.entries.map renderEntry, ';' ∉ l := by
    intro l hl hmem
    obtain ⟨e, he, rfl⟩ := List.mem_map.mp hl
    rw [renderEntry, List.mem_append, List.mem_cons] at hmem
    rcases hmem with hmem | hmem | hmem
    · exact (h e he).plain hmem
    · cases hmem
    · rcases mem_join hmem with hcomma | ⟨w, hw, hc⟩
      · cases hcomma
      · obtain ⟨scope, hscope, rfl⟩ := List.mem_map.mp hw
        exact ((h e he).scopes scope hscope).2 hc
  have hfold : ∀ (es : List (String × List String)) (d : Keys), (∀ e ∈ es, Spelled e) →
      (es.map renderEntry).foldl storeEntry d = es.foldl (fun d e ↦ d.set e.1 e.2) d := by
    intro es
    induction es with
    | nil => exact fun _ _ ↦ rfl
    | cons e rest ih =>
      intro d hes
      have hstore : storeEntry d (renderEntry e) = d.set e.1 e.2 := by
        rw [storeEntry, parseEntry_render (hes e List.mem_cons_self)]
      rw [List.map_cons, List.foldl_cons, List.foldl_cons, hstore]
      exact ih _ fun x hx ↦ hes x (List.mem_cons_of_mem e hx)
  rw [parseApiKeys, renderKeys, Option.getD_some, String.toList_ofList]
  by_cases hempty : keys.entries = []
  · rw [hempty]
    have hkeys := Dict.foldl_set_entries keys
    rw [hempty] at hkeys
    exact hkeys
  · rw [join, List.splitOn_intercalate ';' hplain (by simpa using hempty), hfold _ _ h]
    exact Dict.foldl_set_entries keys

/-- Every configuration text, whatever stands in it, is read as keys that can be spelled, and the
text that spells them is read as the same keys. -/
theorem parseApiKeys_round_trip (raw : Option String) :
    (∀ e ∈ (parseApiKeys raw).entries, Spelled e) ∧
      parseApiKeys (some (renderKeys (parseApiKeys raw))) = parseApiKeys raw :=
  ⟨spelled_parseApiKeys raw, parse_render (spelled_parseApiKeys raw)⟩

example : (parseApiKeys (some " k1 : read, write ;; :read; k2; k1:read,")).entries =
    [("k1", ["read"]), ("k2", [])] := by decide +kernel

end CFactory.Access
