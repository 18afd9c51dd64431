import Lumencast.Lsml.Number
import Lumencast.Machinery.Outcome
import Lumencast.Machinery.Readable
import Lumencast.Protocol.Text
import Mathlib.Data.List.Lex
import Mathlib.Order.Fin.Basic

/-!
# Lsml/Hash — the canonical form of a bundle

What a bundle is hashed by: its JSON with the keys of every object in order, no whitespace, the
numbers as the other serializers show them, and the top-level `scene_version` zeroed.
-/

namespace Lumencast

open Machinery

/-- Strings are compared by their code points. -/
instance : LinearOrder PyStr := LinearOrder.lift' PyStr.points fun _ _ => PyStr.ext

/-! ## Text -/

/-- A member of an object, once its value is rendered. -/
def member (key text : PyStr) : PyStr := Json.quote key ++ ":" ++ text

section Canonicalise

variable [PyRepr]

mutual

/-- `canonicalise`. -/
def canonicalise : Json → Except Raised PyStr
  | .null => .ok "null"
  | .bool true => .ok "true"
  | .bool false => .ok "false"
  | .int n => do
      let f ← orRaise .overflow (PyFloat.ofInt n)
      formatNumber f
  | .float x => formatNumber x
  | .str s => .ok (Json.quote s)
  | .arr xs => do
      let parts ← canonicaliseItems xs
      return "[" ++ PyStr.join "," parts ++ "]"
  | .obj kvs => do
      let parts ← (sortByKey (canonicaliseValues kvs)).mapM fun e => e.2.map (member e.1)
      return "\x7b" ++ PyStr.join "," parts ++ "\x7d"

/-- The elements of a list, in order. -/
def canonicaliseItems : List Json → Except Raised (List PyStr)
  | [] => .ok []
  | x :: xs => do
      let part ← canonicalise x
      let parts ← canonicaliseItems xs
      return part :: parts

/-- What the values of an object come to; what one of them raises counts when its key's turn
comes. -/
def canonicaliseValues : List (PyStr × Json) → List (PyStr × Except Raised PyStr)
  | [] => []
  | (k, v) :: kvs => (k, canonicalise v) :: canonicaliseValues kvs

end

end Canonicalise

/-! ## Bytes -/

/-- Sentinel injected into `scene_version` during hashing. -/
def ZERO_HASH : PyStr := "sha256:0000000000000000000000000000000000000000000000000000000000000000"

/-- `replace_scene_version`: a copy with a top-level `scene_version` zeroed. -/
def replaceSceneVersion : Json → Json
  | .obj kvs =>
      .obj (if (Json.lookup kvs "scene_version").isSome then
        Dict.assign "scene_version" (.str ZERO_HASH) kvs else kvs)
  | v => v

/-- The character a code point is, surrogates being none. -/
def CodePoint.toChar? (p : CodePoint) : Option Char :=
  if h : p.val.isValidChar then some (Char.ofNatAux p.val h) else none

/-- `s.encode("utf-8")`; `none` is the `UnicodeEncodeError`. -/
def PyStr.utf8 (s : PyStr) : Option (List UInt8) :=
  (s.points.mapM CodePoint.toChar?).map (List.flatMap String.utf8EncodeChar)

/-- What `canonical_bytes` raises. -/
inductive CanonicalError where
  | raised (e : Raised)
  /-- `UnicodeEncodeError`, with the text it could not encode. -/
  | unencodable (text : PyStr)

/-- `canonical_bytes`: the canonical text of a bundle, its `scene_version` zeroed, in UTF-8. -/
def canonicalBytes [PyRepr] (bundle : Json) : Except CanonicalError (List UInt8) := do
  let text ← (canonicalise (replaceSceneVersion bundle)).mapError .raised
  match text.utf8 with
  | some bytes => .ok bytes
  | none => .error (.unencodable text)

section Digest

variable [PyRepr] (sha256 : List UInt8 → PyStr)

/-- `hash_bundle`: the bare content address of a bundle; `sha256` is the digest in hex. -/
def hashBundle (bundle : Json) : Except CanonicalError PyStr := (canonicalBytes bundle).map sha256

/-- `hash_inline_bundle`: the content hash a bundle carries in its own `scene_version`. -/
def hashInlineBundle (inline : Json) : Except CanonicalError PyStr :=
  (hashBundle sha256 inline).map ("sha256:" ++ ·)

end Digest

/-! ## Different texts have different bytes -/

theorem toChar?_inj {p q : CodePoint} {c : Char} (hp : p.toChar? = some c)
    (hq : q.toChar? = some c) : p = q := by
  have hval : ∀ {p : CodePoint}, p.toChar? = some c → c.toNat = p.val := fun {p} hp => by
    rw [CodePoint.toChar?] at hp
    by_cases hvalid : p.val.isValidChar
    · rw [dif_pos hvalid] at hp
      rw [← Option.some.inj hp]
      rfl
    · rw [dif_neg hvalid] at hp
      cases hp
  exact Fin.ext ((hval hp).symm.trans (hval hq))

theorem mapM_cons_eq_some {p : CodePoint} {ps : List CodePoint} {cs : List Char}
    (h : (p :: ps).mapM CodePoint.toChar? = some cs) : ∃ c, p.toChar? = some c ∧
      ∃ cs', ps.mapM CodePoint.toChar? = some cs' ∧ cs = c :: cs' := by
  rw [List.mapM_cons] at h
  obtain ⟨c, hc, h⟩ := Option.bind_eq_some_iff.mp h
  obtain ⟨cs', hcs, h⟩ := Option.bind_eq_some_iff.mp h
  exact ⟨c, hc, cs', hcs, (Option.some.inj h).symm⟩

theorem mapM_toChar?_inj : ∀ {ps qs : List CodePoint} {cs : List Char},
    ps.mapM CodePoint.toChar? = some cs → qs.mapM CodePoint.toChar? = some cs → ps = qs
  | [], [], _, _, _ => rfl
  | [], q :: qs, _, hps, hqs => by
      obtain ⟨c, hc, cs, hcs, rfl⟩ := mapM_cons_eq_some hqs
      cases hps
  | p :: ps, [], _, hps, hqs => by
      obtain ⟨c, hc, cs, hcs, rfl⟩ := mapM_cons_eq_some hps
      cases hqs
  | p :: ps, q :: qs, _, hps, hqs => by
      obtain ⟨c, hc, cs, hcs, rfl⟩ := mapM_cons_eq_some hps
      obtain ⟨d, hd, ds, hds, heq⟩ := mapM_cons_eq_some hqs
      obtain ⟨rfl, rfl⟩ := List.cons.inj heq
      rw [toChar?_inj hc hd, mapM_toChar?_inj hcs hds]

theorem flatMap_utf8EncodeChar_inj {cs ds : List Char}
    (h : cs.flatMap String.utf8EncodeChar = ds.flatMap String.utf8EncodeChar) : cs = ds := by
  have hencode : cs.utf8Encode = ds.utf8Encode := congrArg List.toByteArray h
  have hdecode := congrArg ByteArray.utf8Decode? hencode
  rw [List.utf8Decode?_utf8Encode, List.utf8Decode?_utf8Encode, Option.some.injEq] at hdecode
  exact congrArg Array.toList hdecode

/-- UTF-8 tells strings apart. -/
theorem utf8_inj {s t : PyStr} {bytes : List UInt8} (hs : s.utf8 = some bytes)
    (ht : t.utf8 = some bytes) : s = t := by
  obtain ⟨cs, hcs, rfl⟩ := Option.map_eq_some_iff.mp hs
  obtain ⟨ds, hds, heq⟩ := Option.map_eq_some_iff.mp ht
  rw [flatMap_utf8EncodeChar_inj heq] at hds
  exact PyStr.ext (mapM_toChar?_inj hcs hds)

/-- **Bundles with different canonical texts have different bytes**, or fail on different texts. -/
theorem canonicalBytes_eq_iff [PyRepr] {a b : Json} {s t : PyStr}
    (ha : canonicalise (replaceSceneVersion a) = .ok s)
    (hb : canonicalise (replaceSceneVersion b) = .ok t) :
    canonicalBytes a = canonicalBytes b ↔ s = t := by
  have hbytes : ∀ {a : Json} {s : PyStr}, canonicalise (replaceSceneVersion a) = .ok s →
      canonicalBytes a = match s.utf8 with
        | some bytes => .ok bytes
        | none => .error (.unencodable s) := fun h => by
    rw [canonicalBytes, h]
    rfl
  rw [hbytes ha, hbytes hb]
  constructor
  · intro h
    rcases hs : s.utf8 with _ | bytes <;> rcases ht : t.utf8 with _ | bytes' <;>
      rw [hs, ht] at h
    · exact CanonicalError.unencodable.inj (Except.error.inj h)
    · cases h
    · cases h
    · rw [Except.ok.inj h] at hs
      exact utf8_inj hs ht
  · intro h
    rw [h]

/-! ## Different texts have different hashes

The digest is a parameter, and that it does not collide is the only thing that is asked of it. -/

theorem prefixed_inj {sha256 : List UInt8 → PyStr} (hsha : Function.Injective sha256) :
    Function.Injective fun bytes => "sha256:" ++ sha256 bytes := fun _ _ h =>
  hsha (PyStr.ext (List.append_cancel_left (congrArg PyStr.points h)))

section Hash

variable [PyRepr] {sha256 : List UInt8 → PyStr}

/-- A hash is the digest of a canonical text. -/
theorem hashInlineBundle_eq_ok {v : Json} {digest : PyStr} :
    hashInlineBundle sha256 v = .ok digest ↔ ∃ text bytes,
      canonicalise (replaceSceneVersion v) = .ok text ∧ text.utf8 = some bytes ∧
        "sha256:" ++ sha256 bytes = digest := by
  rw [hashInlineBundle, map_eq_ok]
  simp only [hashBundle, map_eq_ok, canonicalBytes, bind_eq_ok, mapError_eq_ok]
  constructor
  · rintro ⟨_, ⟨bytes, ⟨text, htext, hbytes⟩, rfl⟩, rfl⟩
    rcases hutf8 : text.utf8 with _ | bytes'
    · rw [hutf8] at hbytes
      cases hbytes
    · rw [hutf8] at hbytes
      cases hbytes
      exact ⟨text, bytes, htext, hutf8, rfl⟩
  · rintro ⟨text, bytes, htext, hutf8, rfl⟩
    exact ⟨_, ⟨bytes, ⟨text, htext, by rw [hutf8]⟩, rfl⟩, rfl⟩

/-- **Bundles have one hash** when they have one canonical text. -/
theorem hashInlineBundle_eq_iff (hsha : Function.Injective sha256) {v w : Json} {digest : PyStr}
    (h : hashInlineBundle sha256 v = .ok digest) : hashInlineBundle sha256 w = .ok digest ↔
      canonicalise (replaceSceneVersion w) = canonicalise (replaceSceneVersion v) := by
  obtain ⟨text, bytes, htext, hutf8, rfl⟩ := hashInlineBundle_eq_ok.mp h
  rw [hashInlineBundle_eq_ok, htext]
  constructor
  · rintro ⟨text', bytes', htext', hutf8', hdigest⟩
    rw [htext', utf8_inj hutf8' (prefixed_inj hsha hdigest ▸ hutf8)]
  · exact fun htext' => ⟨text, bytes, htext', hutf8, rfl⟩

end Hash

end Lumencast
