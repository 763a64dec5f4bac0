import CFactory.Import.Reach
import CFactory.Import.Repeat

/-!
# A board and its writes

`cards.py:725–767,841–926,1042–1329,1470–1599,2379–2516`, `issue_import.py:438–571,644–714`. The
configuration, the cards and the import state of a database under the calls of its stores,
scoped to a tenant or not. A call that raises leaves the tables as they were.
-/

namespace CFactory.Import

open CFactory.Base
open CFactory.Model
open CFactory.Cards
open CFactory.Git

/-- A call of the store, or an import through it; `skipped` counts key numbers that rows now
gone have used up. The seed of a configuration and the adoption of an older one are calls of
these kinds. -/
inductive BoardCall where
  | createConnection (skipped : Nat) (body : GitConnectionCreate)
  | updateConnection (id : Nat) (body : GitConnectionUpdate)
  | deleteConnection (id : Nat)
  | createRepository (skipped connectionId : Nat) (body : GitRepositoryCreate)
  | updateRepository (id : Nat) (body : GitRepositoryUpdate)
  | deleteRepository (id : Nat)
  | setDefaultRepository (id : Nat)
  | setGitConfig (skipped skippedRepositories : Nat) (update : GitConfigUpdate)
  | createCard (body : CardCreate) (now : Time)
  | updateCard (key : String) (changes : CardChanges) (now : Time)
  | updateStage (key : String) (changes : StageChanges) (now : Time)
  | deleteCard (key : String) (now : Time)
  | importRepository (repositoryId : Option Nat) (project : Option String) (read : ImportRead)
  | claimImportLease (project : String) (ttl now : Time)

/-- The value of a call that did not raise, or the one there was. -/
def keep {ε α : Type} (old : α) : Except ε α → α
  | .ok new => new
  | .error _ => old

/-- One call of a store with this scope. -/
def boardCall (nocase : Bool) (scope : Option String) (b : Board) : BoardCall → Board
  | .createConnection skipped body =>
    { b with
      git := keep b.git ((createConnection b.git (tenantOf scope) skipped body).map Prod.snd) }
  | .updateConnection id body =>
    { b with git := keep b.git ((updateConnection b.git (tenantOf scope) id body).map Prod.snd) }
  | .deleteConnection id =>
    { b with git := keep b.git (deleteConnection b.git (tenantOf scope) id) }
  | .createRepository skipped connectionId body =>
    { b with git := keep b.git (createRepository b.git (tenantOf scope) skipped connectionId body) }
  | .updateRepository id body =>
    { b with git := keep b.git (updateRepository b.git (tenantOf scope) id body) }
  | .deleteRepository id =>
    { b with git := keep b.git (deleteRepository b.git (tenantOf scope) id) }
  | .setDefaultRepository id =>
    { b with git := keep b.git (setDefaultRepository b.git (tenantOf scope) id) }
  | .setGitConfig skipped skippedRepositories update =>
    { b with
      git := keep b.git
        (setGitConfig b.git (tenantOf scope) skipped skippedRepositories update) }
  | .createCard body now =>
    { b with cards := keep b.cards ((create b.cards scope body now).map Prod.snd) }
  | .updateCard key changes now =>
    { b with cards := keep b.cards ((updateCard b.cards scope key changes now).map Prod.snd) }
  | .updateStage key changes now => { b with cards := (update b.cards scope key changes now).2 }
  | .deleteCard key now => { b with cards := (deleteCard b.cards scope key now).2 }
  | .importRepository repositoryId project read =>
    keep b ((importRepository nocase scope b repositoryId project read).map Prod.snd)
  | .claimImportLease project ttl now =>
    { b with states := (claimImportLease b.states (tenantOf scope) project ttl now).2 }

/-- A call and the scope of the store it goes through. -/
abbrev ScopedCall := Option String × BoardCall

/-- The board after one call. -/
def boardStep (nocase : Bool) (b : Board) (call : ScopedCall) : Board :=
  boardCall nocase call.1 b call.2

/-- The board after calls on an empty database, in their order. -/
def boardAfter (nocase : Bool) (calls : List ScopedCall) : Board :=
  calls.foldl (boardStep nocase) {}

/-! ## What every call keeps -/

/-- The configuration is in order and the cards are indexed. -/
structure Sound (b : Board) : Prop where
  configured : Configured b.git
  indexed : Indexed b.cards

variable {nocase : Bool} {scope : Option String} {b : Board}

private theorem keep_map_snd {ε α β : Type} {P : β → Prop} {old : β} {x : Except ε (α × β)}
    (hold : P old) (hnew : ∀ a new, x = .ok (a, new) → P new) : P (keep old (x.map Prod.snd)) := by
  cases x with
  | error e => exact hold
  | ok new => exact hnew new.1 new.2 rfl

private theorem keep_of {ε α : Type} {P : α → Prop} {old : α} {x : Except ε α} (hold : P old)
    (hnew : ∀ new, x = .ok new → P new) : P (keep old x) := by
  cases x with
  | error e => exact hold
  | ok new => exact hnew new rfl

/-- The indexes hold after a pass. -/
theorem indexed_importPass {t : CardTable} (h : Indexed t) (nocase : Bool) (scope : Option String)
    (project : String) (repositoryId : Option Nat) (backfillMax : Int)
    (comments : Option (Group → GroupAnswer)) (now : Time) (rows : List CommentRow)
    (returned : List Returned) :
    Indexed (importPass nocase scope project repositoryId backfillMax comments now t rows
      returned).1 := by
  apply indexed_of_unmarked _ (unmarked_importPass ..)
  apply foldl_invariant _ h
  intro t' r ht'
  exact indexed_importOne ht' scope repositoryId now (refOf project r.issue) r.issue r.fault

/-- The configuration and the indexes are kept by an import. -/
private theorem Sound.importRepository (h : Sound b) {repositoryId : Option Nat}
    {project : Option String} {read : ImportRead} {report : Option PassReport} {b' : Board}
    (himport : importRepository nocase scope b repositoryId project read = .ok (report, b')) :
    Sound b' := by
  rw [Import.importRepository] at himport
  dsimp only at himport
  cases htarget : gitTargetFor b.git (tenantOf scope) read.githubRepo repositoryId project with
  | error e =>
    rw [htarget] at himport
    cases himport
  | ok target =>
    rw [htarget] at himport
    have hpass := Except.ok.inj himport
    dsimp only at hpass
    generalize stripped (if project.getD "" = "" then target.importProject else project) = path
      at hpass
    split at hpass
    · cases hpass
      exact h
    · split at hpass
      · cases hpass
        exact h
      · cases hpass
        exact ⟨h.configured, indexed_importPass h.indexed ..⟩

/-- One call keeps both. -/
theorem Sound.call (h : Sound b) (scope : Option String) (call : BoardCall) :
    Sound (boardCall nocase scope b call) := by
  obtain ⟨hgit, hcards⟩ := h
  cases call with
  | createConnection skipped body =>
    exact ⟨keep_map_snd hgit fun _ _ hok ↦ hgit.createConnection hok, hcards⟩
  | updateConnection id body =>
    exact ⟨keep_map_snd hgit fun _ _ hok ↦ hgit.updateConnection hok, hcards⟩
  | deleteConnection id => exact ⟨keep_of hgit fun _ hok ↦ hgit.deleteConnection hok, hcards⟩
  | createRepository skipped connectionId body =>
    exact ⟨keep_of hgit fun _ hok ↦ hgit.createRepository hok, hcards⟩
  | updateRepository id body => exact ⟨keep_of hgit fun _ hok ↦ hgit.updateRepository hok, hcards⟩
  | deleteRepository id => exact ⟨keep_of hgit fun _ hok ↦ hgit.deleteRepository hok, hcards⟩
  | setDefaultRepository id =>
    exact ⟨keep_of hgit fun _ hok ↦ hgit.setDefaultRepository hok, hcards⟩
  | setGitConfig skipped skippedRepositories update =>
    exact ⟨keep_of hgit fun _ hok ↦ hgit.setGitConfig hok, hcards⟩
  | createCard body now => exact ⟨hgit, keep_map_snd hcards fun _ _ hok ↦ indexed_create hcards hok⟩
  | updateCard key changes now =>
    exact ⟨hgit, keep_map_snd hcards fun _ _ hok ↦ indexed_updateCard_ok hcards hok⟩
  | updateStage key changes now => exact ⟨hgit, indexed_update hcards⟩
  | deleteCard key now => exact ⟨hgit, indexed_deleteCard hcards⟩
  | importRepository repositoryId project read =>
    exact keep_map_snd ⟨hgit, hcards⟩ fun _ _ hok ↦ Sound.importRepository ⟨hgit, hcards⟩ hok
  | claimImportLease project ttl now => exact ⟨hgit, hcards⟩

/-- Every board that calls on an empty database reach is sound. -/
theorem sound_boardAfter (nocase : Bool) (calls : List ScopedCall) :
    Sound (boardAfter nocase calls) := by
  apply foldl_invariant (fun b call hb ↦ hb.call call.1 call.2)
  exact ⟨configured_empty, ⟨List.nodup_nil, by simp, by simp⟩⟩

end CFactory.Import
