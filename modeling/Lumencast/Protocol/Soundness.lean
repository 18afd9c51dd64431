import Lumencast.Protocol.Declared
import Mathlib.Data.List.Forall2

/-!
# Protocol/Soundness — when a decoded frame is the frame that was sent

The decoders check few of the types the frames declare: most fields are passed on as they are, and
the others are coerced.  `Sound` says that each field of a decoded frame has its declared type and
is what the wire has for it; every field is an instance of one lemma, `field_iff`.
-/

namespace Lumencast

open Machinery

/-- How a field of a frame is read: what the wire has for it stands in `Reads` to it, and nothing
there is its default. -/
def Field {α : Type} (env : List (PyStr × Json)) (k : PyStr) (default : α)
    (Reads : Json → α → Prop) (a : α) : Prop :=
  match Json.lookup env k with
  | none => a = default
  | some v => Reads v a

/-! ## The declared types

`Reads…` relates what stands on the wire to what a field holds, for each type a dataclass
declares.  An integer that became a float has to be one that a float holds exactly. -/

namespace Json

/-- An integer. -/
def isInt : Json → Bool
  | .int _ => true
  | _ => false

/-- `true` or `false`. -/
def isBool : Json → Bool
  | .bool _ => true
  | _ => false

/-- A number that a float holds exactly. -/
def isExact : Json → Bool
  | .int n => PyFloat.ofInt n = some (.finite n)
  | .float _ => true
  | _ => false

end Json

/-- A string, passed on. -/
def ReadsStr (v a : Json) : Prop := v.isStr = true ∧ a = v

def ReadsInt (v : Json) (n : ℤ) : Prop := v = .int n

def ReadsBool (v : Json) (b : Bool) : Prop := v = .bool b

/-- A number, as the float it is. -/
def ReadsFloat (v : Json) (x : PyFloat) : Prop := v = .float x ∨ ∃ n : ℤ, v = .int n ∧ x = .finite n

def ReadsEasing (v : Json) (easing : Easing) : Prop := v = .str easing.wire

/-- An optional field that is there. -/
def ReadsSome {α : Type} (Reads : Json → α → Prop) (v : Json) (o : Option α) : Prop :=
  ∃ a, o = some a ∧ Reads v a

def ReadsState (v : Json) (d : PyDict) : Prop := ∃ kvs, v = .obj kvs ∧ d = .named (.ofList kvs)

def ReadsTransition (v : Json) (t : TransitionSpec) : Prop :=
  ∃ raw, v = .obj raw ∧ Json.lookup raw "kind" = some (.str t.kind.wire) ∧
    Field raw "duration_ms" none (ReadsSome ReadsInt) t.durationMs ∧
    Field raw "easing" none (ReadsSome ReadsEasing) t.easing ∧
    Field raw "stiffness" none (ReadsSome ReadsFloat) t.stiffness ∧
    Field raw "damping" none (ReadsSome ReadsFloat) t.damping

def ReadsPatch (v : Json) (p : Patch) : Prop :=
  ∃ item, v = .obj item ∧ Json.lookup item "path" = some (.str p.path) ∧
    Field item "value" .null (fun v a => a = v) p.value ∧
    Field item "transition" none (ReadsSome ReadsTransition) p.transition

def ReadsPatches (v : Json) (ps : List Patch) : Prop :=
  ∃ items, v = .arr items ∧ List.Forall₂ ReadsPatch items ps

def ReadsCause (v : Json) (c : Cause) : Prop :=
  ∃ raw, v = .obj raw ∧ Json.lookup raw "source" = some (.str c.source) ∧
    Field raw "input_id" .null ReadsStr c.inputId

def ReadsSceneTransition (v : Json) (t : SceneTransition) : Prop :=
  ∃ raw, v = .obj raw ∧ Json.lookup raw "kind" = some (.str t.kind) ∧
    Field raw "duration_ms" none (ReadsSome ReadsInt) t.durationMs

/-- Every field of a frame has its declared type, and is what the wire has for it. -/
def Frame.Sound (env : List (PyStr × Json)) : Frame → Prop
  | .snapshot f => Field env "seq" 0 ReadsInt f.seq ∧ Field env "ts" (.str "") ReadsStr f.ts ∧
      Field env "scene_id" (.str "") ReadsStr f.sceneId ∧
      Field env "scene_version" (.str "") ReadsStr f.sceneVersion ∧
      Field env "state" (.named .empty) ReadsState (.named f.state)
  | .delta f => Field env "seq" 0 ReadsInt f.seq ∧ Field env "ts" (.str "") ReadsStr f.ts ∧
      Field env "patches" [] ReadsPatches f.patches ∧
      Field env "cause" none (ReadsSome ReadsCause) f.cause
  | .sceneChanged f => Field env "seq" 0 ReadsInt f.seq ∧ Field env "ts" (.str "") ReadsStr f.ts ∧
      Field env "scene_id" (.str "") ReadsStr f.sceneId ∧
      Field env "scene_version" (.str "") ReadsStr f.sceneVersion ∧
      Field env "from_scene_id" .null ReadsStr f.fromSceneId ∧
      Field env "transition" none (ReadsSome ReadsSceneTransition) f.transition
  | .error f => Field env "seq" 0 ReadsInt f.seq ∧ Field env "ts" (.str "") ReadsStr f.ts ∧
      Field env "code" (.str "") ReadsStr f.code ∧
      Field env "message" (.str "") ReadsStr f.message ∧
      Field env "recoverable" false ReadsBool f.recoverable ∧
      Field env "retry_after_ms" 0 ReadsInt f.retryAfterMs ∧ Field env "path" .null ReadsStr f.path
  | .pong nonce => Field env "nonce" .null ReadsStr nonce
  | .ping nonce => Field env "nonce" .null ReadsStr nonce
  | .subscribe f => Field env "token" (.str "") ReadsStr f.token ∧
      Field env "scene" (.str "") ReadsStr f.scene ∧
      Field env "session" (.str "") ReadsStr f.session ∧
      Field env "since_sequence" none (ReadsSome ReadsInt) f.sinceSequence
  | .input f => Field env "patches" [] ReadsPatches f.patches ∧
      Field env "client_msg_id" .null ReadsStr f.clientMsgId
  | .unsubscribe => True

/-- A state that is keyed by other values than strings is of no declared type. -/
def Decoded.Sound (env : List (PyStr × Json)) : Decoded → Prop
  | .frame f => f.Sound env
  | .keyedSnapshot .. => False

/-- The envelope is of version `1`, the JSON integer. -/
def Versioned (env : List (PyStr × Json)) : Prop := Json.lookup env "v" = some (.int 1)

/-! ## What a text has to carry

The same, as a decidable condition on the envelope alone.  A field that is missing is of every
type, because its default is. -/

/-- What is there for a field is of a type. -/
def ofType (env : List (PyStr × Json)) (k : PyStr) (P : Json → Bool) : Bool :=
  (Json.lookup env k).all P

namespace Json

/-- The fields of a transition, where they are there, are of their declared types. -/
def transitionTyped : Json → Bool
  | .obj raw => ofType raw "duration_ms" isInt && ofType raw "stiffness" isExact
      && ofType raw "damping" isExact
  | _ => false

def patchTyped : Json → Bool
  | .obj item => ofType item "path" isStr && ofType item "transition" transitionTyped
  | _ => false

def patchesTyped : Json → Bool
  | .arr items => items.all patchTyped
  | _ => false

def causeTyped : Json → Bool
  | .obj raw => ofType raw "input_id" isStr
  | _ => false

def sceneTransitionTyped : Json → Bool
  | .obj raw => ofType raw "duration_ms" isInt
  | _ => false

end Json

/-- The fields of a client's envelope of type `t` are of their declared types. -/
def clientTyped (t : PyStr) (env : List (PyStr × Json)) : Bool :=
  if t = FRAME_SUBSCRIBE then ofType env "token" Json.isStr && ofType env "scene" Json.isStr
    && ofType env "session" Json.isStr && ofType env "since_sequence" Json.isInt
  else if t = FRAME_INPUT then ofType env "patches" Json.patchesTyped
    && ofType env "client_msg_id" Json.isStr
  else if t = FRAME_PING then ofType env "nonce" Json.isStr
  else if t = FRAME_PONG then ofType env "nonce" Json.isStr
  else true

/-- The fields of a server's envelope of type `t` are of their declared types. -/
def serverTyped (t : PyStr) (env : List (PyStr × Json)) : Bool :=
  if t = FRAME_SNAPSHOT then ofType env "seq" Json.isInt && ofType env "ts" Json.isStr
    && ofType env "scene_id" Json.isStr && ofType env "scene_version" Json.isStr
    && ofType env "state" Json.isObj
  else if t = FRAME_DELTA then ofType env "seq" Json.isInt && ofType env "ts" Json.isStr
    && ofType env "patches" Json.patchesTyped && ofType env "cause" Json.causeTyped
  else if t = FRAME_SCENE_CHANGED then ofType env "seq" Json.isInt && ofType env "ts" Json.isStr
    && ofType env "scene_id" Json.isStr && ofType env "scene_version" Json.isStr
    && ofType env "from_scene_id" Json.isStr && ofType env "transition" Json.sceneTransitionTyped
  else if t = FRAME_ERROR then ofType env "seq" Json.isInt && ofType env "ts" Json.isStr
    && ofType env "code" Json.isStr && ofType env "message" Json.isStr
    && ofType env "recoverable" Json.isBool && ofType env "retry_after_ms" Json.isInt
    && ofType env "path" Json.isStr
  else ofType env "nonce" Json.isStr

/-! ## One field

A field is found or defaulted, converted or passed on.  `field_iff` says once how soundness of a
field follows from that of its reading, and each field below is an instance. -/

section Fields

variable {α : Type} {env : List (PyStr × Json)} {k : PyStr} {d a : α}
  {f : Json → Except DecodeFailure α} {R : Json → α → Prop} {P : Json → Bool}

/-- **A field is read soundly exactly when the wire has its type for it**: it is enough to compare
the two for a value, and to know the default. -/
theorem field_iff {default : Json} (hparse : f (Json.getOr env k default) = .ok a)
    (hdefault : f default = .ok d) (hread : ∀ v a, f v = .ok a → (R v a ↔ P v = true)) :
    Field env k d R a ↔ ofType env k P = true := by
  unfold Json.getOr at hparse
  unfold Field ofType
  generalize Json.lookup env k = found at hparse ⊢
  rcases found with _ | v
  · rw [Option.getD_none, hdefault] at hparse
    cases hparse
    exact ⟨fun _ => rfl, fun _ => rfl⟩
  · exact hread v a hparse

/-- A field without a default. -/
theorem field_get (hparse : f (Json.get env k) = .ok a) (hnull : f .null = .ok d)
    (hread : ∀ v a, f v = .ok a → (R v a ↔ P v = true)) :
    Field env k d R a ↔ ofType env k P = true :=
  field_iff hparse hnull hread

theorem field_present {o : Option α} (hparse : parsePresent f env k = .ok o)
    (hread : ∀ v a, f v = .ok a → (R v a ↔ P v = true)) :
    Field env k none (ReadsSome R) o ↔ ofType env k P = true := by
  unfold parsePresent at hparse
  unfold Field ofType
  generalize Json.lookup env k = found at hparse ⊢
  rcases found with _ | v
  · cases hparse
    exact ⟨fun _ => rfl, fun _ => rfl⟩
  · obtain ⟨a, ha, rfl⟩ := map_eq_ok.mp hparse
    rw [Option.all_some, ← hread v a ha]
    exact ⟨fun ⟨_, h, hreads⟩ => Option.some.inj h ▸ hreads, fun h => ⟨a, rfl, h⟩⟩

end Fields

/-! ## The readings -/

section Strings

variable {env : List (PyStr × Json)} {k : PyStr}

theorem field_str {default : Json} :
    Field env k default ReadsStr (Json.getOr env k default) ↔
      ofType env k Json.isStr = true :=
  field_iff (f := .ok) rfl rfl fun v a h => by
    cases h
    exact and_iff_left rfl

theorem field_orEmpty : Field env k (.str "") ReadsStr (Json.getOr env k (.str "")).orEmpty ↔
    ofType env k Json.isStr = true := by
  refine field_iff (f := fun v => .ok v.orEmpty) rfl rfl fun v a h => ?_
  cases h
  refine and_iff_left_of_imp fun hstr => ?_
  unfold Json.orEmpty
  rcases v with _ | _ | _ | _ | s | _ | _
  case str =>
    split
    · rfl
    · rename_i hs
      have hempty : s = "" := by_contra fun h => hs (bne_iff_ne.mpr h)
      rw [hempty]
  all_goals cases hstr

theorem field_bool : Field env k false ReadsBool (Json.getOr env k (.bool false)).truthy ↔
    ofType env k Json.isBool = true := by
  refine field_iff (f := fun v => .ok v.truthy) rfl rfl fun v b h => ?_
  cases h
  unfold ReadsBool
  cases v
  case bool => exact ⟨fun _ => rfl, fun _ => rfl⟩
  all_goals exact ⟨fun h => (nomatch h), fun h => (nomatch h)⟩

end Strings

section Conversions

variable [PyParse]

theorem reads_int {v : Json} {n : ℤ} (h : parseInt v = .ok n) :
    ReadsInt v n ↔ v.isInt = true := by
  unfold ReadsInt
  cases v
  case int =>
    cases h
    exact ⟨fun _ => rfl, fun _ => rfl⟩
  all_goals exact ⟨fun h => (nomatch h), fun h => (nomatch h)⟩

theorem reads_intOrNone {v : Json} {o : Option ℤ} (h : parseIntOrNone v = .ok o) :
    ReadsSome ReadsInt v o ↔ v.isInt = true := by
  cases v
  case int n =>
    cases h
    exact ⟨fun _ => rfl, fun _ => ⟨n, rfl, rfl⟩⟩
  all_goals exact ⟨fun ⟨_, _, h⟩ => (nomatch h), fun h => (nomatch h)⟩

theorem reads_float {v : Json} {x : PyFloat} (h : parseFloat v = .ok x) :
    ReadsFloat v x ↔ v.isExact = true := by
  unfold ReadsFloat
  rcases v with _ | b | n | y | s | xs | kvs
  case int =>
    have hx : PyFloat.ofInt n = some x := by
      rwa [parseFloat, mapError_eq_ok, Json.toFloat_int, orRaise_eq_ok] at h
    rw [Json.isExact, hx, decide_eq_true_iff, Option.some.injEq]
    constructor
    · rintro (h | ⟨m, hm, rfl⟩)
      · cases h
      · cases hm
        rfl
    · exact fun hx => Or.inr ⟨n, rfl, hx⟩
  case float =>
    cases h
    exact ⟨fun _ => rfl, fun _ => Or.inl rfl⟩
  all_goals
    refine iff_of_false ?_ Bool.false_ne_true
    rintro (h | ⟨m, hm, -⟩)
    · cases h
    · cases hm

end Conversions

/-! ## The nested records -/

@[simp] theorem readsSome_some {α : Type} {Reads : Json → α → Prop} {v : Json} {a : α} :
    ReadsSome Reads v (some a) ↔ Reads v a :=
  ⟨fun ⟨_, h, hreads⟩ => Option.some.inj h ▸ hreads, fun h => ⟨a, rfl, h⟩⟩

@[simp] theorem readsSome_none {α : Type} {Reads : Json → α → Prop} {v : Json} :
    ¬ ReadsSome Reads v none :=
  fun ⟨_, h, _⟩ => nomatch h

theorem reads_easing [PyRepr] {v : Json} {easing : Easing} (h : parseEasing v = .ok easing) :
    ReadsEasing v easing := by
  unfold parseEasing at h
  split at h
  · rename_i hfind
    cases h
    exact Easing.eq_of_ofJson? hfind
  · cases h

theorem reads_cause {v : Json} {o : Option Cause} (h : parseCause v = .ok o) :
    ReadsSome ReadsCause v o ↔ v.causeTyped = true := by
  rcases v with _ | b | n | x | s | xs | raw
  case null =>
    cases h
    exact ⟨fun h => (readsSome_none h).elim, fun h => (nomatch h)⟩
  case obj =>
    unfold parseCause at h
    dsimp only at h
    split at h
    · rename_i source hget
      cases h
      have hsource : Json.lookup raw "source" = some (.str source) :=
        Json.lookup_of_get hget (fun h => nomatch h)
      rw [readsSome_some, Json.causeTyped, ← @field_str raw _ .null]
      constructor
      · rintro ⟨raw', hraw, -, hid⟩
        cases hraw
        exact hid
      · exact fun hid => ⟨raw, rfl, hsource, hid⟩
    · cases h
  all_goals cases h

section Records

variable [PyParse]

theorem reads_sceneTransition {v : Json} {o : Option SceneTransition}
    (h : parseSceneTransition v = .ok o) :
    ReadsSome ReadsSceneTransition v o ↔ v.sceneTransitionTyped = true := by
  rcases v with _ | b | n | x | s | xs | raw
  case null =>
    cases h
    exact ⟨fun h => (readsSome_none h).elim, fun h => (nomatch h)⟩
  case obj =>
    unfold parseSceneTransition at h
    dsimp only at h
    split at h
    · rename_i kind hget
      obtain ⟨durationMs, hduration, h⟩ := bind_eq_ok.mp h
      cases h
      have hkind : Json.lookup raw "kind" = some (.str kind) :=
        Json.lookup_of_get hget (fun h => nomatch h)
      rw [readsSome_some, Json.sceneTransitionTyped,
        ← field_get hduration rfl fun _ _ => reads_intOrNone]
      constructor
      · rintro ⟨raw', hraw, -, hduration⟩
        cases hraw
        exact hduration
      · exact fun hduration => ⟨raw, rfl, hkind, hduration⟩
    · cases h
  all_goals cases h

variable [PyRepr]

theorem reads_transition {v : Json} {o : Option TransitionSpec}
    (h : parseTransitionSpec v = .ok o) :
    ReadsSome ReadsTransition v o ↔ v.transitionTyped = true := by
  rcases v with _ | b | n | x | s | xs | raw
  case null =>
    cases h
    exact ⟨fun h => (readsSome_none h).elim, fun h => (nomatch h)⟩
  case obj =>
    unfold parseTransitionSpec at h
    dsimp only at h
    split at h
    · cases h
    · rename_i kind hfind
      obtain ⟨durationMs, hduration, h⟩ := bind_eq_ok.mp h
      obtain ⟨easing, heasing, h⟩ := bind_eq_ok.mp h
      obtain ⟨stiffness, hstiffness, h⟩ := bind_eq_ok.mp h
      obtain ⟨damping, hdamping, h⟩ := bind_eq_ok.mp h
      cases h
      have hkind : Json.lookup raw "kind" = some (.str kind.wire) :=
        Json.lookup_of_get (TransitionKind.eq_of_ofJson? hfind) (fun h => nomatch h)
      have heasing' : Field raw "easing" none (ReadsSome ReadsEasing) easing :=
        (field_present (P := fun _ => true) heasing fun _ _ h =>
          iff_of_true (reads_easing h) rfl).mpr
            (by unfold ofType; cases Json.lookup raw "easing" <;> rfl)
      rw [readsSome_some, Json.transitionTyped, Bool.and_eq_true, Bool.and_eq_true,
        ← field_present hduration fun _ _ => reads_int,
        ← field_present hstiffness fun _ _ => reads_float,
        ← field_present hdamping fun _ _ => reads_float]
      constructor
      · rintro ⟨raw', hraw, -, hduration, -, hstiffness, hdamping⟩
        cases hraw
        exact ⟨⟨hduration, hstiffness⟩, hdamping⟩
      · exact fun ⟨⟨hduration, hstiffness⟩, hdamping⟩ =>
          ⟨raw, rfl, hkind, hduration, heasing', hstiffness, hdamping⟩
  all_goals cases h

theorem reads_patch {i : ℕ} {v : Json} {p : Patch} (h : parsePatch i v = .ok p) :
    ReadsPatch v p ↔ v.patchTyped = true := by
  rcases v with _ | b | n | x | s | xs | item
  case obj =>
    unfold parsePatch at h
    dsimp only at h
    rcases hpath : Json.lookup item "path" with _ | path
    · rw [hpath] at h
      cases h
    · rw [hpath] at h
      obtain ⟨transition, htransition, h⟩ := bind_eq_ok.mp h
      cases h
      have hvalue : Field item "value" .null (fun v a => a = v) (Json.get item "value") := by
        unfold Field Json.get
        cases Json.lookup item "value" <;> rfl
      have hstr : path = .str path.toStr ↔ path.isStr = true := by
        cases path
        case str => exact ⟨fun _ => rfl, fun _ => rfl⟩
        all_goals exact ⟨fun h => (nomatch h), fun h => (nomatch h)⟩
      rw [Json.patchTyped, ofType, hpath, Option.all_some, Bool.and_eq_true, ← hstr,
        ← field_get htransition rfl fun _ _ => reads_transition]
      constructor
      · rintro ⟨item', hitem, hpath', -, htransition⟩
        cases hitem
        rw [hpath] at hpath'
        exact ⟨Option.some.inj hpath', htransition⟩
      · exact fun ⟨hpath', htransition⟩ =>
          ⟨item, rfl, hpath.trans (congrArg some hpath'), hvalue, htransition⟩
  all_goals cases h

theorem reads_items : ∀ {items : List Json} {i : ℕ} {ps : List Patch},
    parsePatchesFrom i items = .ok ps →
      (List.Forall₂ ReadsPatch items ps ↔ items.all Json.patchTyped = true)
  | [], _, ps, h => by
      cases h
      exact ⟨fun _ => rfl, fun _ => .nil⟩
  | item :: items, i, ps, h => by
      obtain ⟨p, hp, h⟩ := bind_eq_ok.mp h
      obtain ⟨ps', hps, h⟩ := bind_eq_ok.mp h
      cases h
      rw [List.forall₂_cons, List.all_cons, Bool.and_eq_true, reads_patch hp, reads_items hps]

theorem reads_patches {v : Json} {ps : List Patch} (h : parsePatches v = .ok ps) :
    ReadsPatches v ps ↔ v.patchesTyped = true := by
  rcases v with _ | b | n | x | s | items | raw
  case null => exact ⟨fun ⟨_, h, _⟩ => (nomatch h), fun h => (nomatch h)⟩
  case arr =>
    rw [Json.patchesTyped, ← reads_items h]
    constructor
    · rintro ⟨items', hitems, hreads⟩
      cases hitems
      exact hreads
    · exact fun hreads => ⟨items, rfl, hreads⟩
  all_goals cases h

end Records

/-! ## The frames -/

section Frames

variable {env : List (PyStr × Json)}

theorem field_ts : Field env "ts" (.str "") ReadsStr (tsOf env) ↔
    ofType env "ts" Json.isStr = true :=
  field_orEmpty

theorem field_state {d : PyDict} (h : parseState env = .ok d) :
    Field env "state" (.named .empty) ReadsState d ↔
      ofType env "state" Json.isObj = true := by
  refine field_get (f := fun v => if v.truthy then v.toDict.mapError .raised
    else .ok (.named .empty)) h rfl fun v d hd => ?_
  rcases v with _ | b | n | x | s | xs | kvs
  case obj =>
    refine iff_of_true ⟨kvs, rfl, ?_⟩ rfl
    split at hd
    · cases hd
      rfl
    · rename_i hfalse
      have hnil : kvs = [] := by_contra fun hne => hfalse (by
        rw [Json.truthy, Bool.not_eq_true', ← Bool.not_eq_true, List.isEmpty_iff]
        exact hne)
      cases hd
      rw [hnil]
      rfl
  all_goals exact ⟨fun ⟨_, h, _⟩ => (nomatch h), fun h => (nomatch h)⟩

section Numbers

variable [PyParse]

theorem field_seq {n : ℤ} (h : parseSeq env = .ok n) :
    Field env "seq" 0 ReadsInt n ↔ ofType env "seq" Json.isInt = true :=
  field_iff h rfl fun _ _ => reads_int

theorem field_retry {n : ℤ} (h : parseInt (retryOf env) = .ok n) :
    Field env "retry_after_ms" 0 ReadsInt n ↔
      ofType env "retry_after_ms" Json.isInt = true := by
  refine field_iff (f := fun v => parseInt (if v.truthy then v else .int 0)) h rfl fun v n hn => ?_
  split at hn
  · exact reads_int hn
  · rename_i hfalse
    cases hn
    rcases v with _ | b | m | x | s | xs | kvs
    case int =>
      have hm : m = 0 := by_contra fun hm => hfalse (bne_iff_ne.mpr hm)
      exact iff_of_true (congrArg Json.int hm) rfl
    all_goals exact ⟨fun h => (nomatch h), fun h => (nomatch h)⟩

theorem sound_subscribe {f : Subscribe} (h : parseSubscribe env = .ok f) :
    (Frame.subscribe f).Sound env ↔ (ofType env "token" Json.isStr && ofType env "scene" Json.isStr
      && ofType env "session" Json.isStr && ofType env "since_sequence" Json.isInt) = true := by
  obtain ⟨since, hsince, h⟩ := bind_eq_ok.mp h
  cases h
  rw [Frame.Sound, field_str, field_orEmpty, field_orEmpty,
    field_get hsince rfl fun _ _ => reads_intOrNone]
  simp only [Bool.and_eq_true, and_assoc]

theorem sound_snapshot {d : Decoded} (h : parseSnapshot env = .ok d) :
    d.Sound env ↔ (ofType env "seq" Json.isInt && ofType env "ts" Json.isStr
      && ofType env "scene_id" Json.isStr && ofType env "scene_version" Json.isStr
      && ofType env "state" Json.isObj) = true := by
  obtain ⟨seq, hseq, h⟩ := bind_eq_ok.mp h
  obtain ⟨state, hstate, h⟩ := bind_eq_ok.mp h
  rw [Bool.and_eq_true, ← field_state hstate]
  rcases state with state | entries
  · cases h
    rw [Decoded.Sound, Frame.Sound, field_seq hseq, field_ts, field_str, field_str]
    simp only [Bool.and_eq_true, and_assoc]
  · cases h
    refine ⟨False.elim, fun hsound => ?_⟩
    have hfield := hsound.2
    unfold Field at hfield
    split at hfield
    · cases hfield
    · obtain ⟨kvs, -, hkeyed⟩ := hfield
      cases hkeyed

theorem sound_sceneChanged {f : SceneChanged} (h : parseSceneChanged env = .ok f) :
    (Frame.sceneChanged f).Sound env ↔ (ofType env "seq" Json.isInt && ofType env "ts" Json.isStr
      && ofType env "scene_id" Json.isStr && ofType env "scene_version" Json.isStr
      && ofType env "from_scene_id" Json.isStr
      && ofType env "transition" Json.sceneTransitionTyped) = true := by
  obtain ⟨seq, hseq, h⟩ := bind_eq_ok.mp h
  obtain ⟨transition, htransition, h⟩ := bind_eq_ok.mp h
  cases h
  have hfrom : Field env "from_scene_id" .null ReadsStr (Json.get env "from_scene_id") ↔
      ofType env "from_scene_id" Json.isStr = true := field_str
  rw [Frame.Sound, field_seq hseq, field_ts, field_str, field_str, hfrom,
    field_get htransition rfl fun _ _ => reads_sceneTransition]
  simp only [Bool.and_eq_true, and_assoc]

theorem sound_error {f : ErrorFrame} (h : parseErrorFrame env = .ok f) :
    (Frame.error f).Sound env ↔ (ofType env "seq" Json.isInt && ofType env "ts" Json.isStr
      && ofType env "code" Json.isStr && ofType env "message" Json.isStr
      && ofType env "recoverable" Json.isBool && ofType env "retry_after_ms" Json.isInt
      && ofType env "path" Json.isStr) = true := by
  obtain ⟨seq, hseq, h⟩ := bind_eq_ok.mp h
  obtain ⟨retry, hretry, h⟩ := bind_eq_ok.mp h
  cases h
  have hpath : Field env "path" .null ReadsStr (Json.get env "path") ↔
      ofType env "path" Json.isStr = true := field_str
  rw [Frame.Sound, field_seq hseq, field_ts, field_str, field_str, field_bool, field_retry hretry,
    hpath]
  simp only [Bool.and_eq_true, and_assoc]

end Numbers

variable [PyRepr] [PyParse]

theorem sound_input {f : Input} (h : parseInput env = .ok f) :
    (Frame.input f).Sound env ↔ (ofType env "patches" Json.patchesTyped
      && ofType env "client_msg_id" Json.isStr) = true := by
  obtain ⟨patches, hpatches, h⟩ := bind_eq_ok.mp h
  cases h
  rw [Frame.Sound, field_get hpatches rfl fun _ _ => reads_patches, Bool.and_eq_true]
  exact and_congr_right fun _ => field_str

theorem sound_delta {f : Delta} (h : parseDelta env = .ok f) :
    (Frame.delta f).Sound env ↔ (ofType env "seq" Json.isInt && ofType env "ts" Json.isStr
      && ofType env "patches" Json.patchesTyped && ofType env "cause" Json.causeTyped) = true := by
  obtain ⟨seq, hseq, h⟩ := bind_eq_ok.mp h
  obtain ⟨patches, hpatches, h⟩ := bind_eq_ok.mp h
  obtain ⟨cause, hcause, h⟩ := bind_eq_ok.mp h
  cases h
  rw [Frame.Sound, field_seq hseq, field_ts, field_get hpatches rfl fun _ _ => reads_patches,
    field_get hcause rfl fun _ _ => reads_cause]
  simp only [Bool.and_eq_true, and_assoc]

theorem sound_clientFrame {t : PyStr} {f : Frame} (h : clientFrame t env = .ok f) :
    f.Sound env ↔ clientTyped t env = true := by
  unfold clientFrame at h
  unfold clientTyped
  split
  · rw [if_pos ‹_›] at h
    obtain ⟨f, hf, rfl⟩ := map_eq_ok.mp h
    exact sound_subscribe hf
  · rw [if_neg ‹_›] at h
    split
    · rw [if_pos ‹_›] at h
      obtain ⟨f, hf, rfl⟩ := map_eq_ok.mp h
      exact sound_input hf
    · rw [if_neg ‹_›] at h
      split
      · rw [if_pos ‹_›] at h
        cases h
        exact field_str
      · rw [if_neg ‹_›] at h
        split
        · rw [if_pos ‹_›] at h
          cases h
          exact field_str
        · rw [if_neg ‹_›] at h
          split at h
          · cases h
            exact ⟨fun _ => rfl, fun _ => trivial⟩
          · cases h

theorem sound_serverFrame {t : PyStr} {d : Decoded} (h : serverFrame t env = .ok d) :
    d.Sound env ↔ serverTyped t env = true := by
  unfold serverFrame at h
  unfold serverTyped
  split
  · rw [if_pos ‹_›] at h
    exact sound_snapshot h
  · rw [if_neg ‹_›] at h
    split
    · rw [if_pos ‹_›] at h
      obtain ⟨f, hf, rfl⟩ := map_eq_ok.mp h
      exact sound_delta hf
    · rw [if_neg ‹_›] at h
      split
      · rw [if_pos ‹_›] at h
        obtain ⟨f, hf, rfl⟩ := map_eq_ok.mp h
        exact sound_sceneChanged hf
      · rw [if_neg ‹_›] at h
        split
        · rw [if_pos ‹_›] at h
          obtain ⟨f, hf, rfl⟩ := map_eq_ok.mp h
          exact sound_error hf
        · rw [if_neg ‹_›] at h
          split at h
          · cases h
            exact field_str
          · split at h
            · cases h
              exact field_str
            · cases h

/-- **When an accepted text was decoded soundly**: exactly when its `v` is the integer, and each of
its fields, where it is there, is of the type the frame declares. -/
theorem sound_iff (raw : Raw) :
    (∀ f, decodeClient raw = .ok f → ∃ t env, Carries raw t env ∧
      (Versioned env ∧ f.Sound env ↔ Versioned env ∧ clientTyped t env = true)) ∧
    ∀ d, decodeServer raw = .ok d → ∃ t env, Carries raw t env ∧
      (Versioned env ∧ d.Sound env ↔ Versioned env ∧ serverTyped t env = true) := by
  refine ⟨fun f h => ?_, fun d h => ?_⟩
  · obtain ⟨⟨t, env⟩, henvelope, hframe⟩ := bind_eq_ok.mp h
    exact ⟨t, env, parseEnvelope_eq_ok.mp henvelope,
      and_congr_right fun _ => sound_clientFrame hframe⟩
  · obtain ⟨⟨t, env⟩, henvelope, hframe⟩ := bind_eq_ok.mp h
    exact ⟨t, env, parseEnvelope_eq_ok.mp henvelope,
      and_congr_right fun _ => sound_serverFrame hframe⟩

end Frames

/-- A `Ping` with a nonce. -/
def noncePing : PyStr := "\x7b\"v\":1,\"type\":\"ping\",\"nonce\":\"n\"\x7d"

theorem sound_iff_noncePing :
    letI := PyRepr.plain
    letI := PyParse.only noncePing (.obj (frameToDict (.ping (.str "n"))))
    (∃ t env, Carries (.text noncePing) t env ∧
      (Versioned env ∧ (Frame.ping (.str "n")).Sound env ↔
        Versioned env ∧ clientTyped t env = true)) ∧
    ∃ t env, Carries (.text noncePing) t env ∧
      (Versioned env ∧ (Decoded.frame (.ping (.str "n"))).Sound env ↔
        Versioned env ∧ serverTyped t env = true) := by
  let := PyRepr.plain
  let := PyParse.only noncePing (.obj (frameToDict (.ping (.str "n"))))
  exact ⟨(sound_iff (.text noncePing)).1 _ rfl, (sound_iff (.text noncePing)).2 _ rfl⟩

/-- A `Subscribe` whose token is a list. -/
def listToken : PyStr := "\x7b\"v\":1,\"type\":\"subscribe\",\"token\":[\"t\"]\x7d"

/-- The list is passed on as the token. -/
theorem listToken_unsound :
    letI := PyRepr.plain
    letI := PyParse.only listToken
      (.obj (envelope FRAME_SUBSCRIBE ++ pair "token" (.arr [.str "t"])))
    ∃ f, decodeClient (.text listToken) = .ok f ∧
      ¬ ∃ t env, Carries (.text listToken) t env ∧ Versioned env ∧ f.Sound env := by
  let := PyRepr.plain
  let := PyParse.only listToken (.obj (envelope FRAME_SUBSCRIBE ++ pair "token" (.arr [.str "t"])))
  refine ⟨.subscribe { token := .arr [.str "t"] }, rfl, ?_⟩
  rintro ⟨t, env, ⟨⟨s, hs, hloads⟩, -, -⟩, -, hsound⟩
  cases hs
  rw [PyParse.loads_only] at hloads
  cases hloads
  exact nomatch hsound.1.1

end Lumencast
