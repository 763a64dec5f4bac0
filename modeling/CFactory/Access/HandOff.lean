import CFactory.Access.Gate
import CFactory.Base.Runs

/-!
# Handed-out keys

`routes_connect.py:19–67`, `auth.py:166–180`. Two routes answer with a configured key to whoever
may read. What a caller can come to reach by any sequence of requests is what it reaches with the
keys it has, or, if it may read, with the key that is handed out.
-/

namespace CFactory.Access

open CFactory.Base

/-- `get_connect_token`; `routes_connect.py:19–36`. -/
def tokenRoute : Route := ⟨.get, ["/api/settings/token"], none⟩

/-- `connect_vscode`; `routes_connect.py:39–67`. -/
def vscodeRoute : Route := ⟨.get, ["/connect/vscode"], none⟩

/-- A request. The editor hand-off accepts a redirect to a known editor with a state. -/
structure Ask where
  route : Route
  args : List String
  headers : Headers
  accepted : Bool

/-- Whether an admitted request is answered with a key. -/
def Ask.handsOut (a : Ask) : Bool :=
  a.route = tokenRoute || (a.route = vscodeRoute && a.accepted)

/-- The request presents no key, or one of these. -/
def PresentsOnly (known : List String) (h : Headers) : Prop :=
  ∀ key ∈ extractKey h, key ∈ known

instance (known : List String) (h : Headers) : Decidable (PresentsOnly known h) :=
  inferInstanceAs (Decidable (∀ key ∈ extractKey h, key ∈ known))

/-- The keys a caller has after a request; one it does not have it cannot present. -/
def learn (ks : KeyStore) (eventsAuthMode : String) (known : List String) (a : Ask) :
    List String :=
  if PresentsOnly known a.headers ∧ a.handsOut ∧
      letIn ks eventsAuthMode a.route a.args a.headers = .ok () then
    known ++ ks.preferredKey.toList
  else known

/-- The keys a caller has after a sequence of requests. -/
def session (ks : KeyStore) (eventsAuthMode : String) (known : List String) (asks : List Ask) :
    List String :=
  asks.foldl (learn ks eventsAuthMode) known

/-- Some request with keys of the caller reaches the handler of the route. -/
def Reaches (ks : KeyStore) (eventsAuthMode : String) (known : List String) (r : Route) : Prop :=
  ∃ args h, PresentsOnly known h ∧ letIn ks eventsAuthMode r args h = .ok ()

variable {ks : KeyStore} {eventsAuthMode : String}

/-- More keys reach no less. -/
theorem Reaches.mono {known more : List String} {r : Route}
    (h : Reaches ks eventsAuthMode known r) (hsub : ∀ key ∈ known, key ∈ more) :
    Reaches ks eventsAuthMode more r := by
  obtain ⟨args, headers, honly, hletIn⟩ := h
  exact ⟨args, headers, fun key hkey ↦ hsub key (honly key hkey), hletIn⟩

/-- Both hand-offs are reached by whoever may read. -/
theorem letIn_vscode_iff (args args' : List String) (h : Headers) :
    letIn ks eventsAuthMode vscodeRoute args h = .ok () ↔
      letIn ks eventsAuthMode tokenRoute args' h = .ok () := by
  have hvscode : vscodeRoute ∈ routes := by decide +kernel
  have htoken : tokenRoute ∈ routes := by decide +kernel
  have hneeds : vscodeRoute.needs = [.read] ∧ tokenRoute.needs = [.read] := by decide +kernel
  have hevents : vscodeRoute.events = false ∧ tokenRoute.events = false := by decide +kernel
  rw [letIn_iff ks eventsAuthMode hvscode, letIn_iff ks eventsAuthMode htoken, hneeds.1,
    hneeds.2, hevents.1, hevents.2]

theorem reaches_token_of_handsOut {known : List String} {a : Ask} (hout : a.handsOut = true)
    (honly : PresentsOnly known a.headers)
    (hletIn : letIn ks eventsAuthMode a.route a.args a.headers = .ok ()) :
    Reaches ks eventsAuthMode known tokenRoute := by
  refine ⟨[], a.headers, honly, ?_⟩
  rw [Ask.handsOut, Bool.or_eq_true, Bool.and_eq_true, decide_eq_true_eq, decide_eq_true_eq] at hout
  rcases hout with htoken | ⟨hvscode, -⟩
  · rw [htoken] at hletIn
    rw [← letIn_vscode_iff a.args [] a.headers, letIn_vscode_iff a.args a.args a.headers]
    exact hletIn
  · rw [hvscode] at hletIn
    exact (letIn_vscode_iff a.args [] a.headers).mp hletIn

/-- What a caller has at the end it had at the start, or it was handed out. -/
structure Learned (ks : KeyStore) (eventsAuthMode : String) (known later : List String) : Prop where
  kept : ∀ key ∈ known, key ∈ later
  handed : ∀ key ∈ later, key ∈ known ∨
    (key ∈ ks.preferredKey ∧ Reaches ks eventsAuthMode known tokenRoute)

theorem learned_refl (known : List String) : Learned ks eventsAuthMode known known :=
  ⟨fun _ h ↦ h, fun _ h ↦ .inl h⟩

/-- A caller that reaches something later with a key it was not handed reached it before. -/
theorem Learned.reaches {known later : List String} (h : Learned ks eventsAuthMode known later)
    {r : Route} (hr : Reaches ks eventsAuthMode later r) :
    Reaches ks eventsAuthMode known r ∨ (Reaches ks eventsAuthMode known tokenRoute ∧
      Reaches ks eventsAuthMode ks.preferredKey.toList r) := by
  obtain ⟨args, headers, honly, hletIn⟩ := hr
  cases hkey : extractKey headers with
  | none => exact .inl ⟨args, headers, by simp [PresentsOnly, hkey], hletIn⟩
  | some key =>
    rcases h.handed key (honly key hkey) with hknown | ⟨hpreferred, htoken⟩
    · refine .inl ⟨args, headers, fun k hk ↦ ?_, hletIn⟩
      rw [hkey] at hk
      rwa [← Option.some.inj hk]
    · refine .inr ⟨htoken, args, headers, fun k hk ↦ ?_, hletIn⟩
      rw [hkey] at hk
      rw [← Option.some.inj hk]
      exact Option.mem_toList.mpr hpreferred

/-- A request teaches a caller no key but the one that is handed out. -/
theorem Learned.learn {known later : List String} (h : Learned ks eventsAuthMode known later)
    (a : Ask) : Learned ks eventsAuthMode known (learn ks eventsAuthMode later a) := by
  unfold Access.learn
  split
  · next hask =>
    obtain ⟨honly, hout, hletIn⟩ := hask
    refine ⟨fun key hkey ↦ List.mem_append_left _ (h.kept key hkey), fun key hkey ↦ ?_⟩
    rcases List.mem_append.mp hkey with hkey | hkey
    · exact h.handed key hkey
    · refine .inr ⟨Option.mem_toList.mp hkey, ?_⟩
      -- Either hand-off was reached with a key of the start, or one was handed out already.
      rcases h.reaches (reaches_token_of_handsOut hout honly hletIn) with hreach | ⟨hreach, -⟩
      · exact hreach
      · exact hreach
  · exact h

/-- One request for the key that is handed out, and what it reaches is reached. -/
theorem reaches_of_handed {known : List String} {r : Route}
    (htoken : Reaches ks eventsAuthMode known tokenRoute)
    (hreach : Reaches ks eventsAuthMode ks.preferredKey.toList r) :
    ∃ asks, Reaches ks eventsAuthMode (session ks eventsAuthMode known asks) r := by
  obtain ⟨args, headers, honly, hletIn⟩ := htoken
  refine ⟨[⟨tokenRoute, args, headers, false⟩], hreach.mono fun key hkey ↦ ?_⟩
  have hask : PresentsOnly known headers ∧
      Ask.handsOut ⟨tokenRoute, args, headers, false⟩ = true ∧
      letIn ks eventsAuthMode tokenRoute args headers = .ok () :=
    ⟨honly, by simp [Ask.handsOut], hletIn⟩
  rw [session, List.foldl_cons, List.foldl_nil, Access.learn, if_pos hask]
  exact List.mem_append_right _ hkey

/-- Whatever requests a caller makes, in whatever order: a route that it comes to reach, it reached
with the keys it had, or it could read and reaches it with the key that is handed out; and with
one request it comes to reach all of these. -/
theorem session_reaches_iff (ks : KeyStore) (eventsAuthMode : String) (known : List String)
    (r : Route) :
    (∃ asks, Reaches ks eventsAuthMode (session ks eventsAuthMode known asks) r) ↔
      Reaches ks eventsAuthMode known r ∨ (Reaches ks eventsAuthMode known tokenRoute ∧
        Reaches ks eventsAuthMode ks.preferredKey.toList r) := by
  constructor
  · rintro ⟨asks, hreach⟩
    have hlearned : Learned ks eventsAuthMode known (session ks eventsAuthMode known asks) :=
      foldl_invariant (P := Learned ks eventsAuthMode known) (fun _ a h ↦ h.learn a)
        (learned_refl known) asks
    exact hlearned.reaches hreach
  · rintro (hreach | ⟨htoken, hreach⟩)
    · exact ⟨[], hreach⟩
    · exact reaches_of_handed htoken hreach

/-! ## What is handed out -/

theorem firstWith_holds {scope : Scope} {entries : List (String × List String)} {key : String}
    (h : firstWith scope entries = some key) :
    ∃ scopes, (key, scopes) ∈ entries ∧ scope.text ∈ scopes := by
  rw [firstWith, Option.map_eq_some_iff] at h
  obtain ⟨e, he, rfl⟩ := h
  exact ⟨e.2, List.mem_of_find?_eq_some he, by simpa using List.find?_some he⟩

/-- A key that can write is handed out wherever one is configured. -/
theorem preferredKey_writes (ks : KeyStore) {e : String × List String} (he : e ∈ ks.keys.entries)
    (hwrite : Scope.write.text ∈ e.2) :
    ∃ key scopes, ks.preferredKey = some key ∧ ks.keys.get? key = some scopes ∧
      Scope.write.text ∈ scopes := by
  have hsome : (ks.keys.entries.find? (Scope.write.text ∈ ·.2)).isSome := by
    rw [List.find?_isSome]
    exact ⟨e, he, by simpa using hwrite⟩
  obtain ⟨first, hfirst⟩ := Option.isSome_iff_exists.mp hsome
  have hkey : firstWith .write ks.keys.entries = some first.1 := by rw [firstWith, hfirst]; rfl
  obtain ⟨scopes, hmem, hscope⟩ := firstWith_holds hkey
  refine ⟨first.1, scopes, ?_, (Dict.get?_eq_some_iff _ _ _).mpr hmem, hscope⟩
  rw [KeyStore.preferredKey, hkey, Option.some_or]

/-- A configured key is extracted from the header it is sent in. -/
theorem extractKey_sent (ks : KeyStore) {e : String × List String} (he : e ∈ ks.keys.entries) :
    extractKey ⟨none, some e.1⟩ = some e.1 := by
  have hkey := (ks.spelled e he).key
  have hbearer : bearerToken none = none := by decide +kernel
  rw [extractKey, hbearer, Option.none_or, headerText, Option.getD_some, hkey.trimmed.trim_eq,
    if_neg hkey.nonempty, String.ofList_toList]

/-- Where keys are plain text, one of them can write and every one that can write can read, a
caller with any key that can read comes to reach every route. -/
theorem session_reaches_all (ks : KeyStore) (eventsAuthMode : String)
    (hascii : ∀ e ∈ ks.keys.entries, isAscii e.1 = true)
    (hread : ∀ e ∈ ks.keys.entries, Scope.write.text ∈ e.2 → Scope.read.text ∈ e.2)
    (hwrite : ∃ e ∈ ks.keys.entries, Scope.write.text ∈ e.2) {known : List String}
    {e : String × List String} (he : e ∈ ks.keys.entries) (hknown : e.1 ∈ known)
    (hreads : Scope.read.text ∈ e.2) {r : Route} (hr : r ∈ routes) :
    ∃ asks, Reaches ks eventsAuthMode (session ks eventsAuthMode known asks) r := by
  have hcomparable : ∀ x ∈ ks.keys.entries, Comparable ks x.1 := by
    intro x hx
    rw [Comparable, comparable, List.all_eq_true]
    intro y hy
    rw [hascii x hx, hascii y hy]
    rfl
  have hreach : ∀ x ∈ ks.keys.entries, ∀ route ∈ routes,
      (∀ scope ∈ route.needs, scope.text ∈ x.2) → ∀ keys : List String, x.1 ∈ keys →
        Reaches ks eventsAuthMode keys route := by
    intro x hx route hroute hscopes keys hmem
    refine ⟨[], ⟨none, some x.1⟩, fun k hk ↦ ?_, ?_⟩
    · rw [extractKey_sent ks hx] at hk
      rwa [← Option.some.inj hk]
    · refine (letIn_iff ks eventsAuthMode hroute _ _).mpr (.inr (.inl fun scope hscope ↦ ?_))
      exact ⟨x.1, extractKey_sent ks hx, hcomparable x hx, x.2,
        (Dict.get?_eq_some_iff _ _ _).mpr hx, hscopes scope hscope⟩
  obtain ⟨w, hw, hwscope⟩ := hwrite
  obtain ⟨key, scopes, hpreferred, hget, hkeywrite⟩ := preferredKey_writes ks hw hwscope
  have hentry := (Dict.get?_eq_some_iff _ _ _).mp hget
  have hboth : ∀ scope : Scope, scope.text ∈ scopes := by
    intro scope
    cases scope with
    | read => exact hread _ hentry hkeywrite
    | write => exact hkeywrite
  have htoken : tokenRoute ∈ routes := by decide +kernel
  have hneeds : tokenRoute.needs = [.read] := by decide +kernel
  refine reaches_of_handed ?_ ?_
  · refine hreach e he tokenRoute htoken (fun scope hscope ↦ ?_) known hknown
    rw [hneeds, List.mem_singleton] at hscope
    rwa [hscope]
  · refine hreach _ hentry r hr (fun scope _ ↦ hboth scope) _ ?_
    rw [hpreferred]
    exact List.mem_singleton.mpr rfl

end CFactory.Access
