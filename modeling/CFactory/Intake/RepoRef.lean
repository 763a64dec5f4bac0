import CFactory.Intake.Payload

/-!
# Repository references

`git_config.py:84–122,240–265,336–345,375–390`. A contract names a repository by its provider and
its project, and one on GitHub by its project alone. What the validator accepts as a project holds
no character that could be read as a provider's mark.
-/

namespace CFactory.Payload

open CFactory.Base CFactory.Cards CFactory.Git CFactory.Status

/-- `SUPPORTED_PROVIDERS`; `git_config.py:97`. -/
def supportedProviders : List String := [Provider.github, .gitlab, .azureDevops].map Provider.text

/-- `parse_repo_ref`: the provider and the project, or none where the reference is empty;
`git_config.py:375–390`. -/
def parseRepoRef (ref : Option String) : Option (String × String) :=
  let value := stripped ref
  if value = "" then none
  else
    let head := String.ofList ((strip (value.toList.takeWhile (· ≠ ':'))).map lower)
    match value.toList.dropWhile (· ≠ ':') with
    -- No mark: the whole reference is the project.
    | [] => some ("github", value)
    | _ :: tail =>
      let project := String.ofList (strip tail)
      if head ∈ supportedProviders ∧ project ≠ "" then some (head, project)
      else some ("github", value)

/-- `validate_project` returns the project for some field that a provider's write sends. -/
def Accepts (p : Provider) (project : String) : Prop :=
  ∃ sent field, validateProject sent p field = .ok (some project)

/-- No segment is made of dots alone, and nothing in the path marks a provider, an issue or the
end of a word. -/
structure SafePath (project : String) : Prop where
  segment : ∀ s ∈ project.toList.splitOn '/', ∃ c ∈ s, c ≠ '.'
  colon : ':' ∉ project.toList
  hash : '#' ∉ project.toList
  space : ∀ c ∈ project.toList, isSpace c = false

example : parseRepoRef (some " Gitlab : acme/app ") = some ("gitlab", "acme/app") := by
  decide +kernel

example : parseRepoRef (some "https://gitlab.example/g/p") =
    some ("github", "https://gitlab.example/g/p") := by decide +kernel

variable {p q : Provider} {project other : String}

/-- An accepted project is a project path. -/
theorem Accepts.isProject (h : Accepts p project) : isProject project.toList = true := by
  obtain ⟨sent, field, hvalid⟩ := h
  exact isProject_of_validateProject hvalid

/-- A character of a segment is not the mark of a provider. -/
private theorem segmentChar_ne_colon {c : Char} (h : segmentChar c = true) : c ≠ ':' := by
  rintro rfl
  exact absurd h (by decide)

/-- A project path is safe. -/
theorem safePath_of_isProject (h : isProject project.toList = true) : SafePath project where
  segment s hs := by
    rw [Cards.isProject, Bool.and_eq_true, List.all_eq_true] at h
    have hsegment := h.2 s hs
    rw [isSegment, Bool.and_eq_true, List.any_eq_true] at hsegment
    obtain ⟨c, hc, halnum⟩ := hsegment.2
    refine ⟨c, hc, ?_⟩
    rintro rfl
    exact absurd halnum (by decide)
  colon hc := by
    cases mem_project h hc with
    | inl hsegment => exact segmentChar_ne_colon hsegment rfl
    | inr hslash => exact absurd hslash (by decide)
  hash hc := (plainChar_spec (plainChar_of_mem h hc)).2 rfl
  space c hc := (plainChar_spec (plainChar_of_mem h hc)).1

/-- A project path is not empty. -/
private theorem project_ne_empty (h : isProject project.toList = true) : project ≠ "" := by
  rintro rfl
  exact absurd h (by decide)

/-- A project path is no empty value. -/
private theorem truthy_project (h : isProject project.toList = true) :
    Git.truthy (some project) = some project := by
  rw [Git.truthy, Option.filter_some, if_pos (decide_eq_true (project_ne_empty h))]

/-- The name of a provider is its own kind. -/
private theorem providerKind_text (p : Provider) : providerKind p.text = p.text := by
  cases p with
  | github => decide +kernel
  | gitlab => decide +kernel
  | azureDevops => decide +kernel

/-- The name of a provider is lower case, and no part of it is white space or a mark. -/
private theorem text_plain (p : Provider) :
    (strip p.text.toList).map lower = p.text.toList ∧ p.text ∈ supportedProviders ∧
      ∀ c ∈ p.text.toList, isSpace c = false ∧ c ≠ ':' := by
  have hplain : (strip p.text.toList).map lower = p.text.toList ∧ p.text ∈ supportedProviders ∧
      (p.text.toList.all fun c ↦ !isSpace c && c ≠ ':') = true := by
    cases p with
    | github => decide +kernel
    | gitlab => decide +kernel
    | azureDevops => decide +kernel
  obtain ⟨hlower, hsupported, hall⟩ := hplain
  refine ⟨hlower, hsupported, fun c hc ↦ ?_⟩
  simpa using List.all_eq_true.mp hall c hc

/-! ## Encoding and decoding -/

/-- A project on GitHub is its own reference. -/
theorem qualifyRepo_github (h : isProject project.toList = true) :
    qualifyRepo Provider.github.text (some project) = some project := by
  have hkind : Provider.github.text = "github" := rfl
  rw [qualifyRepo, truthy_project h, Option.map_some, providerKind_text, if_pos hkind]

/-- A project elsewhere is referred to behind the mark of its provider. -/
theorem qualifyRepo_marked (hp : p ≠ .github) (h : isProject project.toList = true) :
    qualifyRepo p.text (some project) = some (p.text ++ ":" ++ project) := by
  have hkind : p.text ≠ "github" := by
    cases p with
    | github => exact absurd rfl hp
    | gitlab => decide
    | azureDevops => decide
  rw [qualifyRepo, truthy_project h, Option.map_some, providerKind_text, if_neg hkind]

/-- A reference without a mark is a project on GitHub. -/
theorem parseRepoRef_unmarked (h : isProject project.toList = true) :
    parseRepoRef (some project) = some ("github", project) := by
  have hrest : project.toList.dropWhile (· ≠ ':') = [] := by
    rw [List.dropWhile_eq_nil_iff]
    intro c hc
    refine decide_eq_true ?_
    rintro rfl
    exact (safePath_of_isProject h).colon hc
  simp only [parseRepoRef, stripped_project h, if_neg (project_ne_empty h), hrest]

/-- What stands before a mark is the head of the reference. -/
private theorem span_mark {head : List Char} (h : ∀ c ∈ head, c ≠ ':') (tail : List Char) :
    (head ++ ':' :: tail).takeWhile (· ≠ ':') = head ∧
      (head ++ ':' :: tail).dropWhile (· ≠ ':') = ':' :: tail := by
  have hpos : ∀ c ∈ head, decide (c ≠ ':') = true := fun c hc ↦ decide_eq_true (h c hc)
  constructor
  · rw [List.takeWhile_append_of_pos hpos, List.takeWhile_cons_of_neg (by decide),
      List.append_nil]
  · rw [List.dropWhile_append_of_pos hpos, List.dropWhile_cons_of_neg (by decide)]

/-- A project path behind the mark of a provider is read back. -/
theorem parseRepoRef_marked (p : Provider) (h : isProject project.toList = true) :
    parseRepoRef (some (p.text ++ ":" ++ project)) = some (p.text, project) := by
  obtain ⟨hlower, hsupported, hplain⟩ := text_plain p
  have hchars : (p.text ++ ":" ++ project).toList = p.text.toList ++ ':' :: project.toList := by
    rw [String.toList_append, String.toList_append, List.append_assoc]
    rfl
  have hstrip : strip (p.text.toList ++ ':' :: project.toList) =
      p.text.toList ++ ':' :: project.toList := by
    apply trim_eq_self
    intro c hc
    rcases List.mem_append.mp hc with hc | hc
    · exact (hplain c hc).1
    · rcases List.mem_cons.mp hc with rfl | hc
      · decide
      · exact (safePath_of_isProject h).space c hc
  have hvalue : stripped (some (p.text ++ ":" ++ project)) = p.text ++ ":" ++ project := by
    rw [stripped, Option.getD_some, hchars, hstrip, ← hchars, String.ofList_toList]
  have hne : p.text ++ ":" ++ project ≠ "" := by
    intro hempty
    rw [hempty] at hchars
    exact absurd hchars.symm (by simp)
  obtain ⟨hhead, hrest⟩ := span_mark (fun c hc ↦ (hplain c hc).2) project.toList
  have htail : String.ofList (strip project.toList) = project := by
    rw [strip_project h, String.ofList_toList]
  simp only [parseRepoRef, hvalue, if_neg hne, hchars, hhead, hrest, hlower, htail,
    String.ofList_toList]
  exact if_pos ⟨hsupported, project_ne_empty h⟩

/-- The reference of a project path is read back as its provider and its path. -/
theorem parseRepoRef_qualifyRepo (p : Provider) (h : isProject project.toList = true) :
    parseRepoRef (qualifyRepo p.text (some project)) = some (p.text, project) := by
  by_cases hp : p = .github
  · rw [hp, qualifyRepo_github h, parseRepoRef_unmarked h]
    rfl
  · rw [qualifyRepo_marked hp h, parseRepoRef_marked p h]

/-- Providers have different names. -/
private theorem providerText_injective {p q : Provider} (h : p.text = q.text) : p = q := by
  cases p <;> cases q <;> first | rfl | exact absurd h (by decide)

/-- Paths that have one reference are one path of one provider. -/
theorem qualifyRepo_injective (hp : isProject project.toList = true)
    (hq : isProject other.toList = true)
    (h : qualifyRepo p.text (some project) = qualifyRepo q.text (some other)) :
    p = q ∧ project = other := by
  have hparsed := parseRepoRef_qualifyRepo p hp
  rw [h, parseRepoRef_qualifyRepo q hq, Option.some.injEq, Prod.mk.injEq] at hparsed
  exact ⟨(providerText_injective hparsed.1).symm, hparsed.2.symm⟩

/-- The reference of an accepted project is read back, no two accepted projects have one
reference, and every accepted project is safe. -/
theorem repoRef_roundTrip :
    (∀ (p : Provider) (project : String), Accepts p project →
      parseRepoRef (qualifyRepo p.text (some project)) = some (p.text, project)) ∧
    (∀ (p q : Provider) (project other : String), Accepts p project → Accepts q other →
      (p, project) ≠ (q, other) →
      qualifyRepo p.text (some project) ≠ qualifyRepo q.text (some other)) ∧
    ∀ (p : Provider) (project : String), Accepts p project → SafePath project := by
  refine ⟨fun p project h ↦ parseRepoRef_qualifyRepo p h.isProject, ?_,
    fun p project h ↦ safePath_of_isProject h.isProject⟩
  intro p q project other hp hq hne href
  obtain ⟨rfl, rfl⟩ := qualifyRepo_injective hp.isProject hq.isProject href
  exact hne rfl

theorem repoRef_roundTrip_subgroup :
    parseRepoRef (qualifyRepo Provider.gitlab.text (some "group/sub/app")) =
        some ("gitlab", "group/sub/app") ∧
      qualifyRepo Provider.gitlab.text (some "group/sub/app") ≠
        qualifyRepo Provider.github.text (some "group/sub/app") ∧
      SafePath "group/sub/app" := by
  have hgitlab : Accepts .gitlab "group/sub/app" :=
    ⟨some " group/sub/app ", "project", by decide +kernel⟩
  have hgithub : Accepts .github "group/sub/app" :=
    ⟨some "group/sub/app", "project", by decide +kernel⟩
  exact ⟨repoRef_roundTrip.1 .gitlab _ hgitlab,
    repoRef_roundTrip.2.1 .gitlab .github _ _ hgitlab hgithub (by decide),
    repoRef_roundTrip.2.2 .gitlab _ hgitlab⟩

end CFactory.Payload
