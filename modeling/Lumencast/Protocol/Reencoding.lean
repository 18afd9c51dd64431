import Lumencast.Protocol.RoundTrip

/-!
# Protocol/Reencoding — decoding what was decoded and encoded

A relay decodes a frame and encodes it again.  What a decoder returns is settled but for two fields
of a server's frames: a `from_scene_id` that is false without being absent, which the encoder leaves
out, and a state out of pairs whose keys are no strings, which JSON turns into strings.  Everything
else is read back as it was (`reencode_iff`).
-/

namespace Lumencast

open Machinery

/-! ## Encoding whatever was decoded -/

/-- The pairs a snapshot is written as. -/
def snapshotToDict (seq : ℤ) (ts sceneId sceneVersion : Json) (state : List (PyStr × Json)) :
    List (PyStr × Json) :=
  envelope FRAME_SNAPSHOT ++ pair "seq" (.int seq) ++ pair "scene_id" sceneId
    ++ pair "scene_version" sceneVersion ++ pair "state" (.obj state) ++ pairIf ts.truthy "ts" ts

section Encoding

variable [PyRepr]

/-- A key as `json.dumps` writes it; a list or a dict can be none. -/
def Json.keyText : Json → Except Raised PyStr
  | .null => .ok "null"
  | .bool true => .ok "true"
  | .bool false => .ok "false"
  | .int n => .ok (toString n)
  | .float x => .ok (floatText x)
  | .str s => .ok s
  | .arr _ => .error .type
  | .obj _ => .error .type

/-- A state with its keys as they are written. -/
def namedKeys (state : List (Json × Json)) : Except Raised (List (PyStr × Json)) :=
  state.mapM fun e => e.1.keyText.map fun k => (k, e.2)

namespace Decoded

/-- `encode`, of what `decode_server` returned. -/
def encode : Decoded → Except Raised PyStr
  | .frame f => .ok (Lumencast.encode f)
  | .keyedSnapshot seq ts sceneId sceneVersion state => do
      let named ← namedKeys state
      return Json.dumps (.obj (snapshotToDict seq ts sceneId sceneVersion named))

/-- The object that text holds: of equal keys the last one counts. -/
def object : Decoded → Except Raised (List (PyStr × Json))
  | .frame f => .ok (frameToDict f)
  | .keyedSnapshot seq ts sceneId sceneVersion state => do
      let named ← namedKeys state
      return snapshotToDict seq ts sceneId sceneVersion (Dict.ofList named).entries

end Decoded

end Encoding

/-! ## What survives

Only two fields can change on the way, so being reencodable says something of snapshots and of
scene changes, and nothing of the other frames. -/

/-- The key of an element `dict()` takes as a pair. -/
def Json.pairKey? (v : Json) : Option Json :=
  match v.items? with
  | some [key, _] => some key
  | _ => none

/-- Whether a state, if it is a list of pairs, names its keys. -/
def Json.namesKeys : Json → Bool
  | .arr xs => xs.all fun x => x.pairKey?.all Json.isStr
  | _ => true

/-- **What survives**: a snapshot whose state names its keys, a scene change whose `from_scene_id`
is true or absent, and every other frame. -/
def Reencodable (t : PyStr) (env : List (PyStr × Json)) : Prop :=
  (t = FRAME_SNAPSHOT → (Json.get env "state").namesKeys = true) ∧
    (t = FRAME_SCENE_CHANGED → (Json.get env "from_scene_id").truthy = true ∨
      Json.get env "from_scene_id" = .null)

/-- A frame without the `from_scene_id` the encoder leaves out. -/
def Frame.rewritten : Frame → Frame
  | .sceneChanged f => .sceneChanged
      { f with fromSceneId := if f.fromSceneId.truthy then f.fromSceneId else .null }
  | f => f

theorem frameToDict_rewritten (f : Frame) : frameToDict f.rewritten = frameToDict f := by
  rcases f with f | f | f | f | nonce | nonce | f | f | _
  case sceneChanged =>
    by_cases h : f.fromSceneId.truthy = true
    · rw [Frame.rewritten, if_pos h]
    · have hfalse : f.fromSceneId.truthy = false := Bool.not_eq_true _ ▸ h
      rw [Frame.rewritten, if_neg h, frameToDict, frameToDict, hfalse]
      rfl
  all_goals rfl

theorem ofServer_rewritten (f : Frame) : f.rewritten.ofServer = f.ofServer := by
  rcases f <;> rfl

theorem truthy_or_null (v : Json) : (if v.truthy then v else .null).truthy = true ∨
    (if v.truthy then v else .null) = .null := by
  by_cases h : v.truthy = true
  · rw [if_pos h]
    exact Or.inl h
  · rw [if_neg h]
    exact Or.inr rfl

theorem rewritten_eq_iff {f : SceneChanged} : (Frame.sceneChanged f).rewritten = .sceneChanged f ↔
    f.fromSceneId.truthy = true ∨ f.fromSceneId = .null := by
  rw [Frame.rewritten, Frame.sceneChanged.injEq]
  constructor
  · intro h
    rw [← congrArg SceneChanged.fromSceneId h]
    exact truthy_or_null f.fromSceneId
  · rintro (h | h)
    · rw [if_pos h]
    · rw [h, ite_self, ← h]

theorem Json.orEmpty_settled (v : Json) : v.orEmpty.Settled := by
  by_cases h : v.truthy = true
  · rw [orEmpty, if_pos h]
    exact Or.inl h
  · rw [orEmpty, if_neg h]
    exact Or.inr rfl

/-! ## The dict of a list of pairs

A state given as a list of pairs is kept by the decoder under whatever keys it has.  Whether all
of them are strings can be told before `dict()` is applied. -/

namespace Json

theorem asPair_eq_ok {v : Json} {e : Json × Json} (h : v.asPair = .ok e) :
    v.pairKey? = some e.1 ∧ e.1.hashable = true := by
  unfold asPair at h
  unfold pairKey?
  split at h
  · cases h
  · rename_i key value hitems
    rw [hitems]
    split at h
    · rename_i hkey
      cases h
      exact ⟨rfl, hkey⟩
    · cases h
  · cases h

/-- The keys of the pairs are those of the elements. -/
theorem all_pairKey {xs : List Json} {pairs : List (Json × Json)}
    (h : List.Forall₂ (fun x e => x.asPair = .ok e) xs pairs) :
    (xs.all fun x => x.pairKey?.all isStr) = pairs.all (·.1.isStr) ∧
      ∀ e ∈ pairs, e.1.hashable = true := by
  induction h with
  | nil => exact ⟨rfl, List.forall_mem_nil _⟩
  | cons hpair _ ih =>
      obtain ⟨hkey, hhash⟩ := asPair_eq_ok hpair
      refine ⟨?_, List.forall_mem_cons.mpr ⟨hhash, ih.2⟩⟩
      rw [List.all_cons, List.all_cons, ih.1, hkey]
      rfl

theorem mapM_namedPair? : ∀ pairs : List (Json × Json),
    (pairs.mapM namedPair?).isSome = pairs.all (·.1.isStr)
  | [] => rfl
  | (key, v) :: pairs => by
      rw [List.mapM_cons, List.all_cons, ← mapM_namedPair? pairs]
      rcases key with _ | _ | _ | _ | s | _ | _
      case str => rcases pairs.mapM namedPair? with _ | named <;> rfl
      all_goals rfl

theorem mem_assignKey {k v : Json} {e : Json × Json} : ∀ {es : List (Json × Json)},
    e ∈ assignKey k v es → e.1 = k ∨ ∃ e' ∈ es, e'.1 = e.1
  | [], h => Or.inl (congrArg Prod.fst (List.mem_singleton.mp h))
  | (k', v') :: es, h => by
      rw [assignKey] at h
      split at h
      · rcases List.mem_cons.mp h with rfl | h
        · exact Or.inr ⟨_, List.mem_cons_self, rfl⟩
        · exact Or.inr ⟨e, List.mem_cons_of_mem _ h, rfl⟩
      · rcases List.mem_cons.mp h with rfl | h
        · exact Or.inr ⟨_, List.mem_cons_self, rfl⟩
        · rcases mem_assignKey h with hk | ⟨e', he', hk⟩
          · exact Or.inl hk
          · exact Or.inr ⟨e', List.mem_cons_of_mem _ he', hk⟩

theorem hashable_foldl_assignKey : ∀ (pairs : List (Json × Json)) {es : List (Json × Json)},
    (∀ e ∈ pairs, e.1.hashable = true) → (∀ e ∈ es, e.1.hashable = true) →
      ∀ e ∈ pairs.foldl (fun es e => assignKey e.1 e.2 es) es, e.1.hashable = true
  | [], _, _, hes => hes
  | p :: pairs, es, hpairs, hes => by
      obtain ⟨hp, hpairs⟩ := List.forall_mem_cons.mp hpairs
      refine hashable_foldl_assignKey pairs hpairs fun e he => ?_
      rcases mem_assignKey he with hk | ⟨e', he', hk⟩
      · rw [hk]
        exact hp
      · rw [← hk]
        exact hes e' he'

/-- **Whether `dict()` of a value is keyed by strings** can be told from the value. -/
theorem toDict_namesKeys {v : Json} {d : PyDict} (h : v.toDict = .ok d) :
    (∃ state, d = .named state ∧ v.namesKeys = true) ∨
      ∃ state, d = .keyed state ∧ v.namesKeys = false ∧ ∀ e ∈ state, e.1.hashable = true := by
  rcases v with _ | b | n | x | s | xs | kvs
  case arr =>
    obtain ⟨pairs, hpairs, rfl⟩ := map_eq_ok.mp h
    obtain ⟨hkeys, hhash⟩ := all_pairKey (mapM_eq_ok.mp hpairs)
    rw [namesKeys, hkeys, ← mapM_namedPair?, dictOfPairs]
    rcases pairs.mapM namedPair? with _ | named
    · exact Or.inr ⟨_, rfl, rfl, hashable_foldl_assignKey pairs hhash (List.forall_mem_nil _)⟩
    · exact Or.inl ⟨_, rfl, rfl⟩
  case str =>
    rw [toDict] at h
    split at h
    · cases h
      exact Or.inl ⟨_, rfl, rfl⟩
    · cases h
  case obj =>
    cases h
    exact Or.inl ⟨_, rfl, rfl⟩
  all_goals cases h

end Json

/-! ## What the decoders leave -/

section Envelope

variable {t : PyStr} {env : List (PyStr × Json)}

theorem reencodable_snapshot :
    Reencodable FRAME_SNAPSHOT env ↔ (Json.get env "state").namesKeys = true :=
  ⟨fun h => h.1 rfl, fun h => ⟨fun _ => h, fun ht => absurd ht (by decide)⟩⟩

theorem reencodable_sceneChanged : Reencodable FRAME_SCENE_CHANGED env ↔
    (Json.get env "from_scene_id").truthy = true ∨ Json.get env "from_scene_id" = .null :=
  ⟨fun h => h.2 rfl, fun h => ⟨fun ht => absurd ht (by decide), fun _ => h⟩⟩

theorem reencodable_of_ne (hsnapshot : t ≠ FRAME_SNAPSHOT) (hchanged : t ≠ FRAME_SCENE_CHANGED) :
    Reencodable t env := ⟨fun ht => absurd ht hsnapshot, fun ht => absurd ht hchanged⟩

theorem parseState_namesKeys {d : PyDict} (h : parseState env = .ok d) :
    (∃ state, d = .named state ∧ (Json.get env "state").namesKeys = true) ∨
      ∃ state, d = .keyed state ∧ (Json.get env "state").namesKeys = false ∧
        ∀ e ∈ state, e.1.hashable = true := by
  unfold parseState at h
  dsimp only at h
  split at h
  · exact Json.toDict_namesKeys (mapError_eq_ok.mp h)
  · rename_i hfalse
    cases h
    refine Or.inl ⟨_, rfl, ?_⟩
    generalize Json.get env "state" = v at hfalse ⊢
    rcases v with _ | _ | _ | _ | _ | xs | _
    case arr =>
      rcases xs with _ | ⟨x, xs⟩
      · rfl
      · exact absurd rfl hfalse
    all_goals rfl

end Envelope

section Keys

variable [PyRepr]

theorem isOk_keyText {v : Json} (h : v.hashable = true) : v.keyText.isOk = true := by
  rcases v with _ | b | n | x | s | xs | kvs
  case bool => rcases b <;> rfl
  case arr => cases h
  case obj => cases h
  all_goals rfl

/-- Keys that could be keys can be written. -/
theorem exists_namedKeys {state : List (Json × Json)} (h : ∀ e ∈ state, e.1.hashable = true) :
    ∃ named, namedKeys state = .ok named := by
  rw [← isOk_iff, namedKeys, Json.mapM_isOk, List.all_eq_true]
  intro e he
  rw [isOk_map]
  exact isOk_keyText (h e he)

end Keys

section Image

variable [PyRepr] [PyParse] {t : PyStr} {env : List (PyStr × Json)}

theorem settled_of_clientFrame {f : Frame} (h : clientFrame t env = .ok f) :
    f.Settled ∧ f.ofClient = true := by
  unfold clientFrame at h
  split at h
  · obtain ⟨f, hparse, rfl⟩ := map_eq_ok.mp h
    obtain ⟨since, -, hf⟩ := bind_eq_ok.mp hparse
    cases hf
    exact ⟨⟨Json.orEmpty_settled _, Json.orEmpty_settled _⟩, rfl⟩
  split at h
  · obtain ⟨f, -, rfl⟩ := map_eq_ok.mp h
    exact ⟨trivial, rfl⟩
  split at h
  · cases h
    exact ⟨trivial, rfl⟩
  split at h
  · cases h
    exact ⟨trivial, rfl⟩
  split at h
  · cases h
    exact ⟨trivial, rfl⟩
  · cases h

/-- **What `decode_server` leaves**: a frame that is settled once it is rewritten, or a snapshot
keyed by other values than strings. -/
theorem serverFrame_cases {d : Decoded} (h : serverFrame t env = .ok d) :
    (∃ f, d = .frame f ∧ f.ofServer = true ∧ f.rewritten.Settled ∧
      (f.rewritten = f ↔ Reencodable t env)) ∨
    ∃ seq ts sceneId sceneVersion state, d = .keyedSnapshot seq ts sceneId sceneVersion state ∧
      ts.Settled ∧ (∀ e ∈ state, e.1.hashable = true) ∧ ¬ Reencodable t env := by
  unfold serverFrame at h
  split at h
  · rename_i ht
    rw [ht, reencodable_snapshot]
    obtain ⟨seq, -, h⟩ := bind_eq_ok.mp h
    obtain ⟨state, hstate, h⟩ := bind_eq_ok.mp h
    have hts := Json.orEmpty_settled (Json.getOr env "ts" (.str ""))
    rcases parseState_namesKeys hstate with ⟨named, rfl, hnames⟩ | ⟨keyed, rfl, hnames, hhash⟩
    · cases h
      exact Or.inl ⟨_, rfl, rfl, hts, iff_of_true rfl hnames⟩
    · cases h
      refine Or.inr ⟨_, _, _, _, _, rfl, hts, hhash, ?_⟩
      rw [hnames]
      exact Bool.false_ne_true
  split at h
  · rename_i ht
    obtain ⟨f, hparse, rfl⟩ := map_eq_ok.mp h
    obtain ⟨seq, -, hparse⟩ := bind_eq_ok.mp hparse
    obtain ⟨patches, -, hparse⟩ := bind_eq_ok.mp hparse
    obtain ⟨cause, -, hparse⟩ := bind_eq_ok.mp hparse
    cases hparse
    refine Or.inl ⟨_, rfl, rfl, Json.orEmpty_settled _, iff_of_true rfl ?_⟩
    rw [ht]
    exact reencodable_of_ne (by decide) (by decide)
  split at h
  · rename_i ht
    rw [ht, reencodable_sceneChanged]
    obtain ⟨f, hparse, rfl⟩ := map_eq_ok.mp h
    obtain ⟨seq, -, hparse⟩ := bind_eq_ok.mp hparse
    obtain ⟨transition, -, hparse⟩ := bind_eq_ok.mp hparse
    cases hparse
    exact Or.inl ⟨_, rfl, rfl, ⟨Json.orEmpty_settled _, truthy_or_null _⟩, rewritten_eq_iff⟩
  split at h
  · rename_i ht
    obtain ⟨f, hparse, rfl⟩ := map_eq_ok.mp h
    obtain ⟨seq, -, hparse⟩ := bind_eq_ok.mp hparse
    obtain ⟨retry, -, hparse⟩ := bind_eq_ok.mp hparse
    cases hparse
    refine Or.inl ⟨_, rfl, rfl, Json.orEmpty_settled _, iff_of_true rfl ?_⟩
    rw [ht]
    exact reencodable_of_ne (by decide) (by decide)
  split at h
  · rename_i ht
    cases h
    refine Or.inl ⟨_, rfl, rfl, trivial, iff_of_true rfl ?_⟩
    rw [ht]
    exact reencodable_of_ne (by decide) (by decide)
  split at h
  · rename_i ht
    cases h
    refine Or.inl ⟨_, rfl, rfl, trivial, iff_of_true rfl ?_⟩
    rw [ht]
    exact reencodable_of_ne (by decide) (by decide)
  · cases h

/-! ## Decoding again -/

/-- **Encoding and decoding again.**  A frame off a client's wire comes back as it was.  What
`decode_server` returned can be encoded, and comes back as it was just when it is `Reencodable`;
`json.loads` is assumed to read the text back as the object it was written from. -/
theorem reencode_iff (raw : Raw) :
    (∀ f, decodeClient raw = .ok f → PyParse.loads (encode f) = .ok (.obj (frameToDict f)) →
      decodeClient (.text (encode f)) = .ok f) ∧
    ∀ t env d, parseEnvelope raw = .ok (t, env) → decodeServer raw = .ok d →
      ∃ text obj, d.encode = .ok text ∧ d.object = .ok obj ∧
        (PyParse.loads text = .ok (.obj obj) →
          (decodeServer (.text text) = .ok d ↔ Reencodable t env)) := by
  constructor
  · intro f h hloads
    obtain ⟨⟨t, env⟩, -, hframe⟩ := bind_eq_ok.mp h
    obtain ⟨hsettled, hclient⟩ := settled_of_clientFrame hframe
    exact decodeClient_of_loads hsettled hclient hloads
  · intro t env d henv h
    rw [decodeServer, henv] at h
    rcases serverFrame_cases h with ⟨f, rfl, hserver, hsettled, hiff⟩ |
      ⟨seq, ts, sceneId, sceneVersion, state, rfl, hts, hhash, hnot⟩
    · refine ⟨encode f, frameToDict f, rfl, rfl, fun hloads => ?_⟩
      rw [← frameToDict_rewritten] at hloads
      rw [decodeServer_of_loads hsettled ((ofServer_rewritten f).trans hserver) hloads,
        Except.ok.injEq, Decoded.frame.injEq]
      exact hiff
    · obtain ⟨named, hnamed⟩ := exists_namedKeys hhash
      let snapshot : Snapshot := { sceneId, sceneVersion, state := .ofList named, seq, ts }
      refine ⟨Json.dumps (.obj (snapshotToDict seq ts sceneId sceneVersion named)),
        frameToDict (.snapshot snapshot), ?_, ?_, fun hloads => ?_⟩
      · rw [Decoded.encode, hnamed]
        rfl
      · rw [Decoded.object, hnamed]
        rfl
      · rw [decodeServer_of_loads (f := .snapshot snapshot) hts rfl hloads, Except.ok.injEq]
        exact iff_of_false (fun heq => by cases heq) hnot

end Image

/-- A scene change whose `from_scene_id` is empty. -/
def emptyFrom : SceneChanged :=
  { sceneId := .str "", sceneVersion := .str "", seq := 0, fromSceneId := .str "" }

/-- Its envelope on the wire. -/
def emptyFromEnv : List (PyStr × Json) :=
  envelope FRAME_SCENE_CHANGED ++ pair "from_scene_id" (.str "")

/-- **It is lost on the way.** -/
theorem emptyFrom_lost :
    letI := PyRepr.plain
    letI := PyParse.both (Json.dumps (.obj emptyFromEnv)) (.obj emptyFromEnv)
      (encode (.sceneChanged emptyFrom)) (.obj (frameToDict (.sceneChanged emptyFrom)))
    decodeServer (.text (Json.dumps (.obj emptyFromEnv))) = .ok (.frame (.sceneChanged emptyFrom)) ∧
      decodeServer (.text (encode (.sceneChanged emptyFrom)))
        = .ok (.frame (.sceneChanged { emptyFrom with fromSceneId := .null })) ∧
      emptyFrom ≠ { emptyFrom with fromSceneId := .null } := by
  refine ⟨rfl, rfl, fun h => ?_⟩
  have hfrom := congrArg SceneChanged.fromSceneId h
  cases hfrom

/-- A state out of a list of pairs. -/
def pairsEnv : List (PyStr × Json) :=
  envelope FRAME_SNAPSHOT ++ pair "state" (.arr [.arr [.str "a", .bool true]])

/-- The snapshot it is decoded to. -/
def pairsSnapshot : Snapshot :=
  { sceneId := .str "", sceneVersion := .str "", state := .ofList [("a", .bool true)] }

/-- Named keys survive. -/
theorem reencode_iff_pairs :
    letI := PyRepr.plain
    letI := PyParse.both (Json.dumps (.obj pairsEnv)) (.obj pairsEnv)
      (encode (.snapshot pairsSnapshot)) (.obj (frameToDict (.snapshot pairsSnapshot)))
    decodeServer (.text (encode (.snapshot pairsSnapshot))) = .ok (.frame (.snapshot pairsSnapshot))
      := by
  let := PyRepr.plain
  let := PyParse.both (Json.dumps (.obj pairsEnv)) (.obj pairsEnv)
    (encode (.snapshot pairsSnapshot)) (.obj (frameToDict (.snapshot pairsSnapshot)))
  obtain ⟨text, obj, htext, hobj, hiff⟩ :=
    (reencode_iff (.text (Json.dumps (.obj pairsEnv)))).2 FRAME_SNAPSHOT pairsEnv
      (.frame (.snapshot pairsSnapshot)) rfl rfl
  cases htext
  cases hobj
  exact (hiff rfl).mpr ⟨fun _ => rfl, fun ht => absurd ht (by decide)⟩

end Lumencast
