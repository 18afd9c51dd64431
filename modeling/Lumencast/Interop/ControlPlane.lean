import Lumencast.Server.Inline
import Lumencast.Server.Server

/-!
# Interop/ControlPlane — `/test/setup`

The handler resets the server, replaces the tokens, registers the first bundle of the request, seeds
it, makes it the active scene and then registers the other bundles; once the body is read it does
not suspend.  `setup_reports_iff` says when this leaves the scene the response reports, and
`setup_rejected_iff` when a rejected request leaves everything as it was.
-/

namespace Lumencast

open Machinery

/-! ## What a request holds

The handler reads the body with `get` and `or`, so a field that is absent, null or empty is the
same to it. -/

/-- `StaticTokens`: the identity each token stands for. -/
abbrev StaticTokens := Dict PyStr Identity

def PLACEHOLDER_ROLES : List (PyStr × Role) :=
  [("$TOKEN_OPERATOR", .operator), ("$TOKEN_VIEWER", .viewer), ("$TOKEN_SERVICE", .service),
    ("$TOKEN_TEST", .test)]

/-- One entry of the tokens of a request. -/
def installToken (tokens : StaticTokens) (entry : PyStr × Json) : StaticTokens :=
  if entry.1 = "$TOKEN_INVALID" then tokens
  else
    match entry.2 with
    | .str value =>
        if value = "" then tokens
        else
          match Dict.find entry.1 PLACEHOLDER_ROLES with
          | none => tokens
          | some role => tokens.set value { subject := entry.1, role := some role }
    | _ => tokens

/-- `_install_tokens`, from the reset on. -/
def installTokens : Json → StaticTokens
  | .obj entries => entries.foldl installToken .empty
  | _ => .empty

/-- `body.get("bundles") or []`. -/
def bundlesOf (body : List (PyStr × Json)) : Json :=
  let bundles := (Json.lookup body "bundles").getD .null
  if bundles.truthy then bundles else .arr []

/-- The inline part of a bundle, empty unless it is an object. -/
def inlineOf (bundle : List (PyStr × Json)) : List (PyStr × Json) :=
  match Json.lookup bundle "inline" with
  | some (.obj inline) => inline
  | _ => []

/-- A value, if it is an object that is not empty. -/
def nonEmptyObject? : Option Json → Option (List (PyStr × Json))
  | some (.obj (entry :: entries)) => some (entry :: entries)
  | _ => none

/-- What the primary bundle is seeded with: `initial_state` takes precedence over the defaults. -/
def seedOf (body primary : List (PyStr × Json)) : Option (List (PyStr × Json)) :=
  (nonEmptyObject? (Json.lookup body "initial_state")).or
    (nonEmptyObject? (Json.lookup (inlineOf primary) "defaults"))

section Bundles

variable [PyRepr] (bundle : List (PyStr × Json))

/-- The id a bundle is registered under: `inline.scene_id` overrides `bundle.id`. -/
def effectiveId : PyStr :=
  let id := ((Json.lookup bundle "id").getD (.str "")).toStr
  match Json.lookup (inlineOf bundle) "scene_id" with
  | some (.str sid) => if sid = "" then id else sid
  | _ => id

/-- `str(bundle.get("hash") or "")`. -/
def hashOf : PyStr :=
  let hash := (Json.lookup bundle "hash").getD .null
  (if hash.truthy then hash else .str "").toStr

/-- The version a bundle is registered with: the default one when it has no hash. -/
def versionOf : PyStr := if hashOf bundle = "" then DEFAULT_SCENE_VERSION else hashOf bundle

/-- The inputs a bundle declares. -/
def specsOf : Except Raised (List InputSpec) :=
  match Json.lookup (inlineOf bundle) "operator_inputs" with
  | some inputs => if inputs.truthy then parseInlineSpecs inputs else .ok []
  | none => .ok []

end Bundles

/-! ## The handler -/

/-- The server behind the control plane. -/
structure ControlPlane where
  kit : Server
  /-- The tokens of its authenticator, if that is a `StaticTokens`. -/
  auth : Option StaticTokens
  wsUrlHint : PyStr := ""

/-- What a request is answered with. -/
inductive Response where
  /-- `200`. -/
  | ok (wsUrl sceneId sceneVersion : PyStr)
  /-- `application/problem+json`. -/
  | problem (status : ℕ) (code detail : PyStr)
  /-- `500`, for an exception that escapes the handler. -/
  | serverError

/-- `JSONResponse`: the body is encoded as UTF-8 at once, which raises on a lone surrogate. -/
def jsonResponse (texts : List PyStr) (r : Response) : Response :=
  if texts.all PyStr.encodable then r else .serverError

/-- `_problem`. -/
def problemResponse (status : ℕ) (code detail : PyStr) : Response :=
  jsonResponse [code, detail] (.problem status code detail)

namespace Server

variable [PyRepr] (k : Server)

/-- Seed the scene `c`, if there is something to seed it with. -/
def seedScene (c : SceneRef) : Option (List (PyStr × Json)) → Except PyError Server
  | none => .ok k
  | some state =>
      ((k.objects.get c).set k.subs (Dict.ofList state)).map fun st => k.onScene c fun _ => st

/-- Register a secondary bundle; what is no object is skipped. -/
def registerSecondary : Json → Server
  | .obj bundle => k.newScene (effectiveId bundle) (versionOf bundle) [] true
  | _ => k

/-- The handler from the primary bundle on. -/
def load (hint : PyStr) (body primary : List (PyStr × Json)) (secondaries : List Json) :
    Response × Server :=
  match specsOf primary with
  | .error _ => (.serverError, k)
  | .ok specs =>
      let id := effectiveId primary
      let registered := k.newScene id (versionOf primary) specs true
      match registered.seedScene k.objects.next (seedOf body primary) with
      | .error .emptyPatches =>
          (problemResponse 400 "bad-initial-state" "scene: empty patches", registered)
      | .error .storeEmpty =>
          (problemResponse 400 "bad-initial-state" "store: empty patches", registered)
      | .error _ => (.serverError, registered)
      | .ok seeded =>
          match seeded.setActive id with
          | .error _ => (.serverError, seeded)
          | .ok active =>
              (jsonResponse [hint, id, hashOf primary] (.ok hint id (hashOf primary)),
                secondaries.foldl registerSecondary active)

end Server

namespace ControlPlane

/-- The server is reset, and the tokens are replaced. -/
def cleared (p : ControlPlane) (body : List (PyStr × Json)) : ControlPlane :=
  { p with
    kit := p.kit.reset
    auth := p.auth.map fun _ => installTokens ((Json.lookup body "tokens").getD .null) }

/-- `setup`, on what `request.json()` comes to. -/
def setup [PyRepr] (p : ControlPlane) : Except PyStr Json → Response × ControlPlane
  | .error e => (problemResponse 400 "bad-body" ("invalid JSON: " ++ e), p)
  | .ok (.obj body) =>
      match bundlesOf body with
      | .arr (.obj primary :: secondaries) =>
          let answer := (p.cleared body).kit.load p.wsUrlHint body primary secondaries
          (answer.1, { p.cleared body with kit := answer.2 })
      | .arr (_ :: _) =>
          (problemResponse 400 "bad-bundle" "bundle must be a JSON object", p.cleared body)
      | _ => (problemResponse 400 "missing-bundle" "at least one bundle required", p)
  | .ok _ => (problemResponse 400 "bad-body" "request body must be a JSON object", p)

end ControlPlane

/-! ## What a setup leaves

The kit is described in three steps: after the reset, after the primary bundle, and after each
secondary one, which takes the place of an earlier bundle of the same id. -/

/-- The state the primary bundle is to be seeded with. -/
def stateOf (body primary : List (PyStr × Json)) : Dict PyStr Json :=
  ((seedOf body primary).map Dict.ofList).getD .empty

/-- A seed is never empty. -/
theorem ne_nil_of_seedOf {body primary state : List (PyStr × Json)}
    (h : seedOf body primary = some state) : state ≠ [] := by
  have hne : ∀ {v : Option Json}, nonEmptyObject? v = some state → state ≠ [] := by
    intro v hv
    unfold nonEmptyObject? at hv
    split at hv
    · cases hv
      exact List.cons_ne_nil _ _
    · cases hv
  rcases Option.or_eq_some_iff.mp h with h | ⟨-, h⟩
  · exact hne h
  · exact hne h

theorem stateOf_eq_empty_iff {body primary : List (PyStr × Json)} :
    stateOf body primary = .empty ↔ seedOf body primary = none := by
  rw [stateOf]
  rcases hseed : seedOf body primary with _ | state
  · exact iff_of_true rfl rfl
  · exact iff_of_false (mt Dict.ofList_eq_empty_iff.mp (ne_nil_of_seedOf hseed)) (by simp)

section Governing

variable [PyRepr]

/-- The last of the secondary bundles that are registered under `id`. -/
def governing (id : PyStr) (secondaries : List Json) : Option (List (PyStr × Json)) :=
  secondaries.foldl (fun found secondary =>
    match secondary with
    | .obj bundle => if effectiveId bundle = id then some bundle else found
    | _ => found) none

theorem governing_concat (id : PyStr) (secondaries : List Json) (secondary : Json) :
    governing id (secondaries ++ [secondary]) =
      match secondary with
      | .obj bundle => if effectiveId bundle = id then some bundle else governing id secondaries
      | _ => governing id secondaries := List.foldl_concat ..

/-- No secondary bundle governs exactly when none has the id. -/
theorem governing_eq_none_iff {id : PyStr} {secondaries : List Json} :
    governing id secondaries = none ↔
      ∀ bundle, .obj bundle ∈ secondaries → effectiveId bundle ≠ id := by
  induction secondaries using List.reverseRecOn with
  | nil => exact iff_of_true rfl fun _ h => absurd h List.not_mem_nil
  | append_singleton secondaries secondary ih =>
    rw [governing_concat]
    simp only [List.mem_append, List.mem_singleton, or_imp, forall_and]
    cases secondary with
    | obj bundle =>
      dsimp only
      split
      · rename_i heq
        exact iff_of_false nofun fun h => h.2 bundle rfl heq
      · rename_i hne
        refine ih.trans (and_iff_left ?_).symm
        rintro _ ⟨⟩
        exact hne
    | _ => exact ih.trans (and_iff_left fun _ h => nomatch h).symm

theorem versionOf_ne_empty (bundle : List (PyStr × Json)) : versionOf bundle ≠ "" := by
  rw [versionOf]
  split
  · decide
  · assumption

/-- A bundle is registered with its own hash if it has one. -/
theorem versionOf_eq_hashOf_iff {bundle : List (PyStr × Json)} :
    versionOf bundle = hashOf bundle ↔ hashOf bundle ≠ "" := by
  constructor
  · intro h
    rw [← h]
    exact versionOf_ne_empty bundle
  · exact fun h => if_neg h

end Governing

namespace Server

/-- Every registered scene is an object, and is filed under its own id. -/
def Filed (k : Server) : Prop :=
  ∀ id c, k.scenes.get? id = some c → c < k.objects.next ∧ (k.objects.get c).id = id

/-- The active scene is there, with this id, this version, this state and these inputs. -/
def Presents (k : Server) (id version : PyStr) (state : Dict PyStr Json)
    (inputs : Dict PyStr InputSpec) : Prop :=
  ∃ c, k.activeScene = some c ∧ (k.objects.get c).id = id ∧ (k.objects.get c).version = version ∧
    (k.objects.get c).store.state = state ∧ (k.objects.get c).declaredInputs = inputs

theorem filed_newScene {k : Server} (id version : PyStr) (specs : List InputSpec)
    (loopRunning : Bool) (h : k.Filed) : (k.newScene id version specs loopRunning).Filed := by
  intro id' c hget
  rcases (get?_newScene ..).mp hget with ⟨rfl, rfl⟩ | ⟨-, hget⟩
  · rw [scene_newScene]
    exact ⟨Nat.lt_succ_self _, rfl⟩
  · obtain ⟨hlt, hfiled⟩ := h id' c hget
    rw [scene_newScene_of_ne _ _ _ _ hlt.ne]
    exact ⟨hlt.trans (Nat.lt_succ_self _), hfiled⟩

variable {k : Server}

/-- **Seeding never fails**, and changes the store of the scene only. -/
theorem seedScene_eq {c : SceneRef} (hstore : (k.objects.get c).store = {})
    (body primary : List (PyStr × Json)) :
    ∃ k₁, k.seedScene c (seedOf body primary) = .ok k₁ ∧ k₁.active = k.active ∧
      k₁.scenes = k.scenes ∧ k₁.objects.next = k.objects.next ∧
      (∀ c', (k₁.objects.get c').id = (k.objects.get c').id) ∧
      k₁.objects.get c = { k.objects.get c with store := ⟨stateOf body primary⟩ } := by
  rw [stateOf]
  rcases hseed : seedOf body primary with _ | state
  · refine ⟨k, rfl, rfl, rfl, rfl, fun _ => rfl, ?_⟩
    change _ = { k.objects.get c with store := {} }
    rw [← hstore]
  · have hempty : (Dict.ofList state).isEmpty = false := by
      obtain ⟨entry, entries, rfl⟩ := List.exists_cons_of_ne_nil (ne_nil_of_seedOf hseed)
      rw [← Bool.not_eq_true, Dict.isEmpty_iff]
      exact Dict.update_ne_empty
    rw [seedScene, Scene.set_eq_ok (k.objects.get c) k.subs hempty]
    refine ⟨_, rfl, rfl, rfl, rfl, field_onScene Scene.id rfl, ?_⟩
    rw [get_onScene, if_pos rfl]
    have hentries : Dict.update .empty (Dict.ofList state).entries = Dict.ofList state :=
      Dict.ofList_entries _
    rw [Scene.seeded, hstore, hentries]
    rfl

variable [PyRepr]

theorem filed_registerSecondary (h : k.Filed) (secondary : Json) :
    (k.registerSecondary secondary).Filed := by
  unfold registerSecondary
  split
  · exact filed_newScene _ _ _ _ h
  · exact h

/-- **What the secondary bundles leave under an id** that is active: the last bundle of that id,
fresh, or what was there before. -/
theorem get_registerSecondaries {id : PyStr} {c : SceneRef} (hid : id ≠ "")
    (hactive : k.active = id) (hget : k.scenes.get? id = some c) (hc : c < k.objects.next)
    (secondaries : List Json) :
    ∃ c', (secondaries.foldl registerSecondary k).activeScene = some c' ∧
      c' < (secondaries.foldl registerSecondary k).objects.next ∧
      (secondaries.foldl registerSecondary k).active = id ∧
      (secondaries.foldl registerSecondary k).objects.get c' =
        (governing id secondaries).elim (k.objects.get c) fun bundle =>
          Scene.new c' id (versionOf bundle) [] := by
  induction secondaries using List.reverseRecOn with
  | nil =>
    refine ⟨c, ?_, hc, hactive, rfl⟩
    rw [List.foldl_nil, activeScene, if_neg (hactive ▸ hid), hactive, hget]
  | append_singleton secondaries secondary ih =>
    obtain ⟨c', hscene, hlt, hactive', hobject⟩ := ih
    rw [List.foldl_concat, governing_concat]
    generalize secondaries.foldl registerSecondary k = k' at hscene hlt hactive' hobject ⊢
    unfold registerSecondary
    split
    · rename_i bundle
      have hstays : (k'.newScene (effectiveId bundle) (versionOf bundle) [] true).active = id := by
        rw [newScene, if_neg (hactive' ▸ hid), hactive']
      have hactiveScene : (k'.newScene (effectiveId bundle) (versionOf bundle) [] true).activeScene
          = (k'.newScene (effectiveId bundle) (versionOf bundle) [] true).scenes.get? id := by
        rw [activeScene, hstays, if_neg hid]
      by_cases heq : effectiveId bundle = id
      · -- the bundle takes the place of what was there
        rw [if_pos heq]
        refine ⟨k'.objects.next, ?_, Nat.lt_succ_self _, hstays, ?_⟩
        · exact hactiveScene.trans ((get?_newScene ..).mpr (Or.inl ⟨heq.symm, rfl⟩))
        · rw [scene_newScene, heq]
          rfl
      · rw [if_neg heq]
        refine ⟨c', ?_, hlt.trans (Nat.lt_succ_self _), hstays, ?_⟩
        · rw [activeScene, hactive', if_neg hid] at hscene
          exact hactiveScene.trans ((get?_newScene ..).mpr (Or.inr ⟨Ne.symm heq, hscene⟩))
        · rw [scene_newScene_of_ne _ _ _ _ hlt.ne]
          exact hobject
    · exact ⟨c', hscene, hlt, hactive', hobject⟩

/-- The scene the primary bundle makes. -/
def primaryScene (c : SceneRef) (body primary : List (PyStr × Json)) (specs : List InputSpec) :
    Scene :=
  { Scene.new c (effectiveId primary) (versionOf primary) specs with
    store := ⟨stateOf body primary⟩ }

/-- **What the handler does with the primary bundle**, on a server that was just reset: the new
scene is active, and seeded. -/
theorem load_eq (hint : PyStr) (body : List (PyStr × Json)) {primary : List (PyStr × Json)}
    (secondaries : List Json) (hscenes : k.scenes = .empty) (hactive : k.active = "")
    {specs : List InputSpec} (hspecs : specsOf primary = .ok specs) :
    ∃ k₁ : Server, k.load hint body primary secondaries
        = (jsonResponse [hint, effectiveId primary, hashOf primary]
            (.ok hint (effectiveId primary) (hashOf primary)),
          secondaries.foldl registerSecondary k₁) ∧
      k₁.active = effectiveId primary ∧ k₁.scenes.get? (effectiveId primary) = some k.objects.next ∧
      k.objects.next < k₁.objects.next ∧ k₁.Filed ∧
      k₁.objects.get k.objects.next = primaryScene k.objects.next body primary specs := by
  set k₀ := k.newScene (effectiveId primary) (versionOf primary) specs true with hk₀
  have hscene₀ : k₀.objects.get k.objects.next
      = Scene.new k.objects.next (effectiveId primary) (versionOf primary) specs :=
    scene_newScene ..
  have hfiled₀ : k₀.Filed := filed_newScene _ _ _ _ fun id c hget => by
    rw [hscenes] at hget
    cases hget
  have hget₀ : k₀.scenes.get? (effectiveId primary) = some k.objects.next :=
    (get?_newScene ..).mpr (Or.inl ⟨rfl, rfl⟩)
  obtain ⟨k₁, hseed, hactive₁, hscenes₁, hnext₁, hid₁, hobject₁⟩ :=
    seedScene_eq (c := k.objects.next) (by rw [hscene₀]; rfl) body primary
  have hactive₁' : k₁.active = effectiveId primary := hactive₁.trans (if_pos hactive)
  have hget₁ : k₁.scenes.get? (effectiveId primary) = some k.objects.next := hscenes₁ ▸ hget₀
  refine ⟨k₁, ?_, hactive₁', hget₁, hnext₁ ▸ Nat.lt_succ_self _, fun id c hget => ?_, ?_⟩
  · rw [load, hspecs]
    dsimp only
    rw [hseed]
    dsimp only
    rw [setActive, hget₁, if_pos hactive₁']
  · rw [hnext₁, hid₁]
    exact hfiled₀ id c (hscenes₁ ▸ hget)
  · rw [hobject₁, hscene₀]
    rfl

/-- **The scene that is active after the handler**, on a server that was just reset, if the primary
bundle has an id: the one it makes, or that of the last later bundle of the same id. -/
theorem activeScene_load (hint : PyStr) (body : List (PyStr × Json)) {primary : List (PyStr × Json)}
    (secondaries : List Json) (hscenes : k.scenes = .empty) (hactive : k.active = "")
    {specs : List InputSpec} (hspecs : specsOf primary = .ok specs) (hid : effectiveId primary ≠ "") :
    ∃ c, (k.load hint body primary secondaries).2.activeScene = some c ∧
      (k.load hint body primary secondaries).2.objects.get c =
        (governing (effectiveId primary) secondaries).elim
          (primaryScene k.objects.next body primary specs) fun bundle =>
          Scene.new c (effectiveId primary) (versionOf bundle) [] := by
  obtain ⟨k₁, hload, hactive₁, hget₁, hlt₁, -, hobject₁⟩ :=
    load_eq hint body secondaries hscenes hactive hspecs
  obtain ⟨c, hscene, -, -, hobject⟩ :=
    get_registerSecondaries hid hactive₁ hget₁ hlt₁ secondaries
  have hkit : (k.load hint body primary secondaries).2
      = secondaries.foldl registerSecondary k₁ := congrArg Prod.snd hload
  rw [hkit]
  exact ⟨c, hscene, hobject₁ ▸ hobject⟩

theorem filed_registerSecondaries (h : k.Filed) :
    ∀ secondaries : List Json, (secondaries.foldl registerSecondary k).Filed := by
  intro secondaries
  induction secondaries using List.reverseRecOn with
  | nil => exact h
  | append_singleton secondaries secondary ih =>
    rw [List.foldl_concat]
    exact filed_registerSecondary ih secondary

/-- The scene the response reports is the one the primary bundle describes. -/
def Reports (k : Server) (id version : PyStr) (body primary : List (PyStr × Json)) : Prop :=
  ∃ specs, specsOf primary = .ok specs ∧ k.Presents id version (stateOf body primary)
    (.ofList (specs.map fun spec => (spec.path, spec)))

theorem reports_iff {c : SceneRef} (hscene : k.activeScene = some c) {id version : PyStr}
    {body primary : List (PyStr × Json)} {specs : List InputSpec}
    (hspecs : specsOf primary = .ok specs) : k.Reports id version body primary ↔
      (k.objects.get c).id = id ∧ (k.objects.get c).version = version ∧
      (k.objects.get c).store.state = stateOf body primary ∧
      (k.objects.get c).declaredInputs = .ofList (specs.map fun spec => (spec.path, spec)) := by
  constructor
  · rintro ⟨specs', hspecs', c', hscene', hreported⟩
    cases hspecs.symm.trans hspecs'
    cases hscene.symm.trans hscene'
    exact hreported
  · exact fun h => ⟨specs, hspecs, c, hscene, h⟩

/-- Nothing is reported under the empty id. -/
theorem not_reports_empty (h : k.Filed) {version : PyStr} {body primary : List (PyStr × Json)} :
    ¬ k.Reports "" version body primary := by
  rintro ⟨specs, -, c, hscene, hc, -⟩
  rw [activeScene] at hscene
  split at hscene
  · cases hscene
  · rename_i hne
    exact hne ((h _ c hscene).2.symm.trans hc)

end Server

/-! ## When it is what the response says

The response names the primary bundle, whatever is registered after it.  A secondary bundle under
the same id takes its place. -/

section Reporting

variable [PyRepr]

/-- **A request whose primary bundle prevails**: it has an id, no secondary bundle has the same, and
it has a hash; or the last one of the same id leaves what the primary bundle asks for: its own
version, no state and no inputs. -/
def Prevails (body primary : List (PyStr × Json)) (secondaries : List Json) : Prop :=
  effectiveId primary ≠ "" ∧
    match governing (effectiveId primary) secondaries with
    | none => hashOf primary ≠ ""
    | some bundle =>
        versionOf bundle = hashOf primary ∧ seedOf body primary = none ∧ specsOf primary = .ok []

/-- **The reported scene is served exactly when the primary bundle prevails.** -/
theorem reports_load_iff {k : Server} (hint : PyStr) {body primary : List (PyStr × Json)}
    (secondaries : List Json) (hscenes : k.scenes = .empty) (hactive : k.active = "")
    {specs : List InputSpec} (hspecs : specsOf primary = .ok specs) :
    (k.load hint body primary secondaries).2.Reports (effectiveId primary) (hashOf primary)
      body primary ↔ Prevails body primary secondaries := by
  by_cases hid : effectiveId primary = ""
  · obtain ⟨k₁, hload, -, -, -, hfiled₁, -⟩ :=
      Server.load_eq hint body secondaries hscenes hactive hspecs
    rw [hload, hid]
    have hfiled := Server.filed_registerSecondaries hfiled₁ secondaries
    exact iff_of_false (Server.not_reports_empty hfiled) fun h => h.1 hid
  · obtain ⟨c, hscene, hobject⟩ :=
      Server.activeScene_load hint body secondaries hscenes hactive hspecs hid
    rw [Server.reports_iff hscene hspecs, hobject, Prevails, and_iff_right hid]
    rcases governing (effectiveId primary) secondaries with _ | bundle
    · -- the scene of the primary bundle, as it was seeded
      change _ ↔ hashOf primary ≠ ""
      rw [← versionOf_eq_hashOf_iff]
      exact ⟨fun h => h.2.1, fun h => ⟨rfl, h, rfl, rfl⟩⟩
    · -- a fresh scene: it has no state and no inputs
      refine ⟨fun ⟨_, hversion, hstate, hinputs⟩ => ⟨hversion, ?_, ?_⟩,
        fun ⟨hversion, hseed, hnil⟩ => ⟨rfl, hversion, ?_, ?_⟩⟩
      · exact stateOf_eq_empty_iff.mp hstate.symm
      · have hnil := List.map_eq_nil_iff.mp (Dict.ofList_eq_empty_iff.mp hinputs.symm)
        exact hnil ▸ hspecs
      · exact (stateOf_eq_empty_iff.mpr hseed).symm
      · cases hspecs.symm.trans hnil
        rfl

end Reporting

namespace ControlPlane

/-- A problem is no acceptance. -/
theorem problemResponse_ne_ok {status : ℕ} {code detail wsUrl id version : PyStr} :
    problemResponse status code detail ≠ .ok wsUrl id version := by
  rw [problemResponse, jsonResponse]
  split
  · exact fun h => by cases h
  · exact fun h => by cases h

section Setup

variable [PyRepr]

/-- **The ways through the handler**: the primary bundle is loaded, or it is no object and is
rejected after the server was cleared, or the request is rejected before that. -/
theorem setup_cases (p : ControlPlane) (request : Except PyStr Json) :
    (∃ body primary secondaries, request = .ok (.obj body) ∧
      bundlesOf body = .arr (.obj primary :: secondaries) ∧
      p.setup request = (((p.cleared body).kit.load p.wsUrlHint body primary secondaries).1,
        { p.cleared body with
          kit := ((p.cleared body).kit.load p.wsUrlHint body primary secondaries).2 })) ∨
    (∃ body first rest, request = .ok (.obj body) ∧ bundlesOf body = .arr (first :: rest) ∧
      first.isObj = false ∧ p.setup request
        = (problemResponse 400 "bad-bundle" "bundle must be a JSON object", p.cleared body)) ∨
    ((∀ body first rest, request = .ok (.obj body) → bundlesOf body ≠ .arr (first :: rest)) ∧
      ∃ code detail, p.setup request = (problemResponse 400 code detail, p)) := by
  unfold setup
  split
  · refine Or.inr (Or.inr ⟨fun body first rest h => ?_, _, _, rfl⟩)
    cases h
  · rename_i body
    split
    · rename_i primary secondaries hbundles
      exact Or.inl ⟨body, primary, secondaries, rfl, hbundles, rfl⟩
    · rename_i first rest hnot hbundles
      refine Or.inr (Or.inl ⟨body, first, rest, rfl, hbundles, ?_, rfl⟩)
      cases first with
      | obj primary => exact absurd rfl (hnot primary)
      | _ => rfl
    · rename_i hnot hnone
      refine Or.inr (Or.inr ⟨fun body' first rest h hbundles => ?_, _, _, rfl⟩)
      cases h
      exact hnone first rest hbundles
  · rename_i hnot
    refine Or.inr (Or.inr ⟨fun body _ _ h => ?_, _, _, rfl⟩)
    cases h
    exact absurd rfl (hnot body)

/-- A request whose primary bundle is loaded is accepted, or something escapes. -/
theorem load_response {k : Server} (hint : PyStr) (body primary : List (PyStr × Json))
    (secondaries : List Json) (hscenes : k.scenes = .empty) (hactive : k.active = "") :
    ((k.load hint body primary secondaries).1 = .ok hint (effectiveId primary) (hashOf primary) ∧
      ∃ specs, specsOf primary = .ok specs) ∨
    (k.load hint body primary secondaries).1 = .serverError := by
  rcases hspecs : specsOf primary with e | specs
  · rw [Server.load, hspecs]
    exact Or.inr rfl
  · obtain ⟨k₁, hload, -⟩ := Server.load_eq hint body secondaries hscenes hactive hspecs
    rw [hload, jsonResponse]
    dsimp only
    split
    · exact Or.inl ⟨rfl, specs, rfl⟩
    · exact Or.inr rfl

/-- **An accepted request was loaded**, on the server that was reset for it, and the answer reports
what its primary bundle says. -/
theorem loaded_of_setup {p p' : ControlPlane} {request : Except PyStr Json}
    {wsUrl id version : PyStr} (h : p.setup request = (.ok wsUrl id version, p')) :
    ∃ body primary secondaries specs, request = .ok (.obj body) ∧
      bundlesOf body = .arr (.obj primary :: secondaries) ∧ specsOf primary = .ok specs ∧
      id = effectiveId primary ∧ version = hashOf primary ∧
      p'.kit = (p.kit.reset.load p.wsUrlHint body primary secondaries).2 := by
  rcases p.setup_cases request with ⟨body, primary, secondaries, hrequest, hbundles, hsetup⟩ |
    ⟨body, first, rest, -, -, -, hsetup⟩ | ⟨-, code, detail, hsetup⟩
  · obtain ⟨hscenes, hactive⟩ := p.kit.scenes_reset
    have hresponse := load_response p.wsUrlHint body primary secondaries hscenes hactive
    rw [hsetup, Prod.mk.injEq] at h
    obtain ⟨hok, rfl⟩ := h
    rcases hresponse with ⟨hresponse, specs, hspecs⟩ | hresponse
    · cases hok.symm.trans hresponse
      exact ⟨body, primary, secondaries, specs, hrequest, hbundles, hspecs, rfl, rfl, rfl⟩
    · cases hok.symm.trans hresponse
  · rw [hsetup, Prod.mk.injEq] at h
    exact absurd h.1 problemResponse_ne_ok
  · rw [hsetup, Prod.mk.injEq] at h
    exact absurd h.1 problemResponse_ne_ok

/-- **What an accepted request leaves active**, if its primary bundle has an id: the seeded scene, or
the empty one of a later bundle. -/
theorem activeScene_of_setup {p p' : ControlPlane} {body primary : List (PyStr × Json)}
    {secondaries : List Json} {wsUrl id version : PyStr}
    (hbundles : bundlesOf body = .arr (.obj primary :: secondaries)) (hid : effectiveId primary ≠ "")
    (h : p.setup (.ok (.obj body)) = (.ok wsUrl id version, p')) :
    ∃ c, p'.kit.activeScene = some c ∧ (p'.kit.objects.get c).store.state =
      (governing (effectiveId primary) secondaries).elim (stateOf body primary) fun _ => .empty := by
  obtain ⟨body', primary', secondaries', specs, hrequest, hbundles', hspecs, -, -, hkit⟩ :=
    loaded_of_setup h
  cases hrequest
  cases hbundles.symm.trans hbundles'
  obtain ⟨hscenes, hactive⟩ := p.kit.scenes_reset
  obtain ⟨c, hscene, hobject⟩ :=
    Server.activeScene_load p.wsUrlHint body secondaries hscenes hactive hspecs hid
  rw [hkit]
  refine ⟨c, hscene, ?_⟩
  rw [hobject]
  rcases governing (effectiveId primary) secondaries with _ | bundle
  · rfl
  · rfl

/-- **A setup leaves the scene it reports exactly when the primary bundle prevails.** -/
theorem setup_reports_iff {p p' : ControlPlane} {request : Except PyStr Json}
    {wsUrl id version : PyStr} (h : p.setup request = (.ok wsUrl id version, p')) :
    ∃ body primary secondaries, request = .ok (.obj body) ∧
      bundlesOf body = .arr (.obj primary :: secondaries) ∧
      (p'.kit.Reports id version body primary ↔ Prevails body primary secondaries) := by
  obtain ⟨body, primary, secondaries, specs, hrequest, hbundles, hspecs, rfl, rfl, hkit⟩ :=
    loaded_of_setup h
  obtain ⟨hscenes, hactive⟩ := p.kit.scenes_reset
  refine ⟨body, primary, secondaries, hrequest, hbundles, ?_⟩
  rw [hkit]
  exact reports_load_iff p.wsUrlHint secondaries hscenes hactive hspecs

end Setup

/-- A server where nothing was set up yet. -/
def blank : ControlPlane := { kit := {}, auth := some .empty }

/-- A bundle with an id and a hash. -/
def bundle (id hash : PyStr) : List (PyStr × Json) := [("id", .str id), ("hash", .str hash)]

/-- Two bundles, the first of them to be seeded. -/
def twoBundles (second : PyStr) : List (PyStr × Json) :=
  [("bundles", .arr [.obj (bundle "a" "v"), .obj (bundle second "w")]),
    ("initial_state", .obj [("x", .int 1)])]

/-- Two scenes are set up, and the first is served. -/
theorem setup_reports_iff_twoBundles :
    letI := PyRepr.plain
    (blank.setup (.ok (.obj (twoBundles "b")))).2.kit.Reports "a" "v" (twoBundles "b")
      (bundle "a" "v") := by
  let := PyRepr.plain
  have hok : blank.setup (.ok (.obj (twoBundles "b")))
      = (.ok "" "a" "v", (blank.setup (.ok (.obj (twoBundles "b")))).2) := rfl
  obtain ⟨body, primary, secondaries, hrequest, hbundles, hiff⟩ := setup_reports_iff hok
  cases hrequest
  cases hbundles
  have hhash : hashOf (bundle "a" "v") ≠ "" := by decide
  exact hiff.mpr ⟨by decide, hhash⟩

/-- The second bundle has the id of the first: the scene that is reported is gone. -/
theorem twoBundles_not_reported :
    letI := PyRepr.plain
    ∃ p', blank.setup (.ok (.obj (twoBundles "a"))) = (.ok "" "a" "v", p') ∧
      ¬ p'.kit.Reports "a" "v" (twoBundles "a") (bundle "a" "v") := by
  let := PyRepr.plain
  refine ⟨_, rfl, ?_⟩
  rintro ⟨_, _, c, hscene, -, hversion, -⟩
  cases hscene
  exact absurd hversion (by decide)

/-! ## A rejected request

There are two ways to be rejected, before the reset and after it. -/

/-- What is registered, what the registered scenes hold, who is attached to them, what is active and
what each token stands for, all as they were. -/
structure Unchanged (p p' : ControlPlane) : Prop where
  scenes : p'.kit.scenes = p.kit.scenes
  objects : ∀ c, p.kit.Registered c → p'.kit.objects.get c = p.kit.objects.get c
  subs : ∀ c r, p.kit.Registered c → p.kit.Owns c r → p'.kit.subs.get r = p.kit.subs.get r
  active : p'.kit.active = p.kit.active
  auth : p'.auth.map Dict.get? = p.auth.map Dict.get?

theorem Unchanged.refl (p : ControlPlane) : Unchanged p p :=
  ⟨rfl, fun _ _ => rfl, fun _ _ _ _ => rfl, rfl, rfl⟩

/-- The tokens that are installed are the ones that the request asks for. -/
def Installed (p : ControlPlane) (body : List (PyStr × Json)) : Prop :=
  ∀ tokens, p.auth = some tokens →
    (installTokens ((Json.lookup body "tokens").getD .null)).get? = tokens.get?

/-- Clearing changes nothing exactly when there is nothing to clear, and the tokens are those that
are installed. -/
theorem unchanged_cleared_iff {p : ControlPlane} {body : List (PyStr × Json)} :
    Unchanged p (p.cleared body) ↔ p.kit.scenes = .empty ∧ p.kit.active = "" ∧ p.Installed body := by
  obtain ⟨hscenes, hactive⟩ := p.kit.scenes_reset
  constructor
  · intro h
    refine ⟨h.scenes.symm.trans hscenes, h.active.symm.trans hactive, fun tokens htokens => ?_⟩
    have hauth : (p.auth.map fun _ => installTokens ((Json.lookup body "tokens").getD .null)).map
        Dict.get? = p.auth.map Dict.get? := h.auth
    rw [htokens] at hauth
    exact Option.some.inj hauth
  · rintro ⟨hnone, hinactive, hinstalled⟩
    have hreset : p.kit.reset = p.kit := by
      rw [Server.reset, hnone]
      change { p.kit with scenes := .empty, active := "" } = p.kit
      rw [← hnone, ← hinactive]
    refine ⟨congrArg Server.scenes hreset, fun c _ => ?_, fun c r _ _ => ?_,
      congrArg Server.active hreset, ?_⟩
    · exact congrArg (fun k : Server => k.objects.get c) hreset
    · exact congrArg (fun k : Server => k.subs.get r) hreset
    · rw [cleared]
      rcases htokens : p.auth with _ | tokens
      · rfl
      · exact congrArg some (hinstalled tokens htokens)

/-- **A rejected request leaves everything as it was** unless its first bundle is no object: then it
must have found nothing registered, and the tokens it asks for installed. -/
theorem setup_rejected_iff [PyRepr] {p p' : ControlPlane} {request : Except PyStr Json} {status : ℕ}
    {code detail : PyStr} (h : p.setup request = (.problem status code detail, p')) :
    Unchanged p p' ↔ ∀ body first rest, request = .ok (.obj body) →
      bundlesOf body = .arr (first :: rest) → first.isObj = true ∨
        (p.kit.scenes = .empty ∧ p.kit.active = "" ∧ p.Installed body) := by
  rcases p.setup_cases request with ⟨body, primary, secondaries, hrequest, hbundles, hsetup⟩ |
    ⟨body, first, rest, hrequest, hbundles, hobj, hsetup⟩ | ⟨hnone, code', detail', hsetup⟩
  · -- a loaded bundle is never rejected
    obtain ⟨hscenes, hactive⟩ := p.kit.scenes_reset
    rw [hsetup, Prod.mk.injEq] at h
    rcases load_response p.wsUrlHint body primary secondaries hscenes hactive with
      ⟨hresponse, -⟩ | hresponse
    · cases h.1.symm.trans hresponse
    · cases h.1.symm.trans hresponse
  · rw [hsetup, Prod.mk.injEq] at h
    rw [← h.2, unchanged_cleared_iff]
    constructor
    · rintro hclear body' first' rest' hrequest' hbundles'
      cases hrequest.symm.trans hrequest'
      exact Or.inr hclear
    · intro hall
      rcases hall body first rest hrequest hbundles with hfirst | hclear
      · rw [hobj] at hfirst
        cases hfirst
      · exact hclear
  · rw [hsetup, Prod.mk.injEq] at h
    rw [← h.2]
    refine iff_of_true (.refl p) fun body first rest hrequest hbundles => ?_
    exact absurd hbundles (hnone body first rest hrequest)

/-- A scene is registered, and a token installed. -/
def inUse : ControlPlane :=
  { kit := ({} : Server).newScene "a" "v" [] true
    auth := some (installTokens (.obj [("$TOKEN_VIEWER", .str "t")])) }

/-- A request without a bundle leaves them. -/
theorem setup_rejected_iff_inUse :
    letI := PyRepr.plain
    Unchanged inUse (inUse.setup (.ok (.obj [("bundles", .arr [])]))).2 := by
  let := PyRepr.plain
  have hproblem : inUse.setup (.ok (.obj [("bundles", .arr [])]))
      = (.problem 400 "missing-bundle" "at least one bundle required",
        (inUse.setup (.ok (.obj [("bundles", .arr [])]))).2) := rfl
  refine (setup_rejected_iff hproblem).mpr fun body first rest hrequest hbundles => ?_
  cases hrequest
  cases hbundles

/-- A request whose bundle is no object is rejected, and they are gone. -/
theorem inUse_not_unchanged :
    letI := PyRepr.plain
    ∃ p', inUse.setup (.ok (.obj [("bundles", .arr [.null])]))
        = (.problem 400 "bad-bundle" "bundle must be a JSON object", p') ∧
      p'.kit.scenes = .empty ∧ p'.auth = some .empty ∧ ¬ Unchanged inUse p' := by
  let := PyRepr.plain
  refine ⟨_, rfl, rfl, rfl, fun h => ?_⟩
  exact absurd h.scenes nofun

end ControlPlane

end Lumencast
