import Lumencast.Lsml.Layout
import Lumencast.Protocol.Convert

/-!
# Cli/Build — `lumencast build`

A bundle is hashed, stamped with its digest and written by `json.dumps`.  The digest is that of the
canonical text of the bundle *before* the stamp, which zeroes a version that is there and leaves one
out that is not: what is written carries its own hash exactly when the bundle had a version
(`verifies_iff`), and is the canonical text exactly when both serialisers show every number of
it alike (`canonical_iff`).
-/

namespace Lumencast.Build

open Machinery

/-! ## The command -/

/-- `bundle["scene_version"] = version`. -/
def stamp (version : PyStr) (bundle : List (PyStr × Json)) : List (PyStr × Json) :=
  Dict.assign "scene_version" (.str version) bundle

/-- What is found under the path: no file, one that cannot be read or is not UTF-8, or a text. -/
inductive Source where
  | missing
  | unreadable (error : PyStr)
  | text (s : PyStr)

/-- What a run leaves behind: its exit code, the lines it printed, and the file it wrote. -/
structure Report where
  code : ℕ
  stdout : List PyStr := []
  stderr : List PyStr := []
  written : Option (PyStr × PyStr) := none

/-- The bundle as it is emitted: in the file `--out` names, or printed. -/
def Report.emitted (report : Report) : Option PyStr :=
  match report.written with
  | some (_, text) => some text
  | none => if report.code = 0 then report.stdout.head? else none

/-- The bundle is written where `--out` says, and the digest printed; without `--out` (or with an
empty one) the bundle is printed. -/
def emit (out : Option PyStr) (digest canonical : PyStr) : Report :=
  if out.getD "" ≠ "" then
    { code := 0, stdout := [digest], written := some (out.getD "", canonical) }
  else { code := 0, stdout := [canonical] }

def cannotRead (path error : PyStr) : Report :=
  { code := 2, stderr := ["lumencast build: cannot read " ++ path ++ ": " ++ error] }

section Run

variable [PyRepr] [PyParse] (sha256 : List UInt8 → PyStr)

/-- `run`: an exception is one that hashing the bundle raises. -/
def run (path : PyStr) (source : Source) (out : Option PyStr) : Except CanonicalError Report :=
  match source with
  | .missing => .ok { code := 2, stderr := ["lumencast build: not a file: " ++ path] }
  | .unreadable e => .ok (cannotRead path e)
  | .text s =>
      match PyParse.loads s with
      | .error e => .ok (cannotRead path e)
      | .ok (.obj bundle) => do
          let digest ← hashInlineBundle sha256 (.obj bundle)
          return emit out digest (Json.obj (stamp digest bundle)).dumpsSorted
      | .ok _ => .ok
          { code := 1, stderr := ["lumencast build: bundle root must be a JSON object"] }

/-- The version a text carries is the hash of what it says. -/
def Verifies (text : PyStr) : Prop :=
  ∃ bundle version, PyParse.loads text = .ok (.obj bundle) ∧
    Json.lookup bundle "scene_version" = some (.str version) ∧
      hashInlineBundle sha256 (.obj bundle) = .ok version

end Run

@[simp] theorem emitted_emit (out : Option PyStr) (digest canonical : PyStr) :
    (emit out digest canonical).emitted = some canonical := by
  rw [emit]
  split <;> rfl

/-- What a run on a bundle leaves behind. -/
theorem run_eq_ok [PyRepr] [PyParse] {sha256 : List UInt8 → PyStr} {path text : PyStr}
    {out : Option PyStr} {bundle : List (PyStr × Json)} {report : Report}
    (hloads : PyParse.loads text = .ok (.obj bundle)) :
    run sha256 path (.text text) out = .ok report ↔
      ∃ digest, hashInlineBundle sha256 (.obj bundle) = .ok digest ∧
        report = emit out digest (Json.obj (stamp digest bundle)).dumpsSorted := by
  rw [run, hloads]
  dsimp only
  rw [bind_eq_ok]
  exact exists_congr fun digest => and_congr_right fun _ =>
    ⟨fun h => (Except.ok.inj h).symm, fun h => congrArg Except.ok h.symm⟩

/-! ## The stamp

The digest is of the bundle with a zeroed version.  A version that was there is zeroed again when
the result is verified; one that was not is a member more. -/

section Stamp

variable {bundle : List (PyStr × Json)}

theorem replaceSceneVersion_obj (bundle : List (PyStr × Json)) :
    replaceSceneVersion (.obj bundle) = .obj (if (Json.lookup bundle "scene_version").isSome then
      stamp ZERO_HASH bundle else bundle) := rfl

/-- What is hashed of a bundle that was stamped and written. -/
theorem replaceSceneVersion_restamp (version : PyStr) :
    replaceSceneVersion (Json.obj (stamp version bundle)).sortedKeys
      = .obj (stamp ZERO_HASH (sortByKey (Json.sortedPairs (stamp version bundle)))) := by
  have hmem : ("scene_version" : PyStr) ∈ (sortByKey (Json.sortedPairs (stamp version bundle))).map
      Prod.fst := by
    rw [((sortByKey_perm _).map Prod.fst).mem_iff, Json.keys_sortedPairs]
    exact Dict.mem_keys_assign.mpr (Or.inl rfl)
  rw [Json.sortedKeys, replaceSceneVersion_obj]
  exact congrArg Json.obj (if_pos (Dict.find_isSome_iff.mpr hmem))

/-- A version a bundle did not have is some quotes more. -/
theorem quotes_lt_stamp (habsent : ¬ (Json.lookup bundle "scene_version").isSome = true)
    (numerals : Json.Numerals) (version : PyStr) :
    Json.quotes ((Json.obj bundle).sortedKeys.write numerals)
      < Json.quotes ((Json.obj (stamp version bundle)).sortedKeys.write numerals) := by
  have hfresh : ("scene_version" : PyStr) ∉ bundle.map Prod.fst :=
    fun hmem => habsent (Dict.find_isSome_iff.mpr hmem)
  rw [stamp, Dict.assign_of_notMem hfresh]
  exact Json.quotes_lt_concat numerals bundle ("scene_version", .str version)

/-- **What is hashed has a version when the bundle had one.** -/
theorem canonicalise_stamp_iff [PyRepr] {text : PyStr}
    (h : canonicalise (replaceSceneVersion (.obj bundle)) = .ok text) :
    canonicalise (.obj (stamp ZERO_HASH bundle)) = .ok text ↔
      (Json.lookup bundle "scene_version").isSome = true := by
  rw [replaceSceneVersion_obj] at h
  by_cases hpresent : (Json.lookup bundle "scene_version").isSome = true
  · rw [if_pos hpresent] at h
    exact iff_of_true h hpresent
  · rw [if_neg hpresent] at h
    refine iff_of_false (fun hstamp => ?_) hpresent
    have hquotes := quotes_lt_stamp hpresent ecmaNumerals ZERO_HASH
    rw [canonicalise_eq_ok h, canonicalise_eq_ok hstamp] at hquotes
    exact lt_irrefl _ hquotes

variable (hkeys : (bundle.map Prod.fst).Nodup)
include hkeys

theorem nodup_stamp (version : PyStr) : ((stamp version bundle).map Prod.fst).Nodup :=
  Dict.nodup_assign hkeys

/-- Stamping a bundle that was stamped and written. -/
theorem sortedKeys_restamp (version version' : PyStr) : (Json.obj (stamp version
    (sortByKey (Json.sortedPairs (stamp version' bundle))))).sortedKeys
      = (Json.obj (stamp version bundle)).sortedKeys := by
  have hstr : ∀ kvs : List (PyStr × Json),
      stamp version (Json.sortedPairs kvs) = Json.sortedPairs (stamp version kvs) := fun kvs => by
    rw [Json.sortedPairs_eq_map, Json.sortedPairs_eq_map, stamp, stamp, Dict.map_assign]
    rfl
  have hsorted := sortByKey_perm (stamp version' bundle)
  have hperm : (stamp version (sortByKey (stamp version' bundle))).Perm (stamp version bundle) := by
    have hassign : (stamp version (sortByKey (stamp version' bundle))).Perm
        (stamp version (stamp version' bundle)) := Dict.assign_perm
      (((hsorted.map Prod.fst).nodup_iff).mpr (nodup_stamp hkeys version')) hsorted
    have hself : stamp version (stamp version' bundle) = stamp version bundle :=
      Dict.assign_assign_self ..
    rwa [hself] at hassign
  rw [← Json.sortedPairs_sortByKey, hstr, Json.sortedKeys, Json.sortedPairs_sortedPairs,
    ← Json.sortedKeys]
  exact (Json.sortedKeys_obj_congr (nodup_stamp hkeys version) hperm.symm).symm

theorem canonicalise_restamp [PyRepr] (version version' : PyStr) : canonicalise (.obj (stamp version
    (sortByKey (Json.sortedPairs (stamp version' bundle))))) = canonicalise (.obj (stamp version
      bundle)) := by
  rw [← canonicalise_sortedKeys, sortedKeys_restamp hkeys, canonicalise_sortedKeys]

/-- The version a bundle that was stamped and written carries. -/
theorem lookup_restamp (version : PyStr) :
    Json.lookup (sortByKey (Json.sortedPairs (stamp version bundle))) "scene_version"
      = some (.str version) := by
  have hperm := sortByKey_perm (Json.sortedPairs (stamp version bundle))
  have hnodup : ((sortByKey (Json.sortedPairs (stamp version bundle))).map Prod.fst).Nodup := by
    rw [(hperm.map Prod.fst).nodup_iff, Json.keys_sortedPairs]
    exact nodup_stamp hkeys version
  refine Dict.find_of_mem hnodup (hperm.mem_iff.mpr ?_)
  rw [Json.sortedPairs_eq_map]
  exact List.mem_map.mpr ⟨("scene_version", .str version),
    (Dict.mem_assign_iff hkeys).mpr (Or.inl rfl), rfl⟩

/-- The stamp is read off what is written. -/
theorem dumpsSorted_stamp_inj [PyRepr] {version version' : PyStr}
    (h : (Json.obj (stamp version bundle)).dumpsSorted
      = (Json.obj (stamp version' bundle)).dumpsSorted) : version = version' := by
  obtain ⟨before, behind, hplace⟩ :=
    Json.exists_dumps_around Json.pythonNumerals hkeys "scene_version"
  have htext := (hplace version).symm.trans (h.trans (hplace version'))
  have hpoints := congrArg PyStr.points htext
  rw [PyStr.points_append, PyStr.points_append, PyStr.points_append, PyStr.points_append,
    List.append_assoc, List.append_assoc] at hpoints
  exact (quote_inj (List.append_cancel_left hpoints)).1

/-- The members of a bundle other than its version, each number of them shown alike. -/
theorem numberAlike_stamp_iff [PyRepr] (version : PyStr) :
    (Json.obj (stamp version bundle)).Numbers NumberAlike ↔
      ∀ e ∈ bundle, e.1 ≠ "scene_version" → e.2.Numbers NumberAlike := by
  rw [Json.Numbers, Json.numbersPairs_iff, stamp]
  simp only [Dict.mem_assign_iff hkeys]
  constructor
  · exact fun h e he hne => h e (Or.inr ⟨hne, he⟩)
  · rintro h e (rfl | ⟨hne, he⟩)
    · exact trivial
    · exact h e he hne

/-- A bundle that is hashed has a canonical text under any version. -/
theorem exists_canonicalise_stamp [PyRepr] {text : PyStr}
    (h : canonicalise (replaceSceneVersion (.obj bundle)) = .ok text) (version : PyStr) :
    ∃ text, canonicalise (.obj (stamp version bundle)) = .ok text := by
  rw [replaceSceneVersion_obj, canonicalise_obj_eq_ok] at h
  refine ⟨_, canonicalise_obj_eq_ok.mpr ⟨fun e he => ?_, rfl⟩⟩
  rcases (Dict.mem_assign_iff hkeys).mp he with rfl | ⟨hne, he⟩
  · exact ⟨_, rfl⟩
  · refine h.1 e ?_
    split
    · exact (Dict.mem_assign_iff hkeys).mpr (Or.inr ⟨hne, he⟩)
    · exact he

end Stamp

/-! ## A hash that is injective

SHA-256 on the texts hashed below, and any injection elsewhere. -/

/-- Texts and their SHA-256. -/
def known : List (PyStr × PyStr) :=
  [("\x7b\x7d", "44136fa355b3678a1146ad16f7e8649e94fb4fc21fe77e8310c060f61caaff8a"),
    ("\x7b\"scene_version\":" ++ Json.quote ZERO_HASH ++ "\x7d",
      "a29fc02315fe4add59d053265e26ba87b5903d7362f234f9a759ef42f425a00d"),
    ("\x7b\"a\":0\x7d", "45b619e97b5d9b029af4522e9ffb02fa99ff2bf226c82ee22a7cc10269a557e8"),
    ("\x7b\"half\":0.5,\"scene_version\":" ++ Json.quote ZERO_HASH ++ "\x7d",
      "bdd4425a9ec0a35024af05c75f45940b4def776af160964cbea07bdf1369e6a5")]

/-- Bytes as code points that are no hex digits. -/
def letters (bytes : List UInt8) : PyStr :=
  ⟨bytes.map fun b => ⟨256 + b.toNat, by have := b.toNat_lt; omega⟩⟩

def knownSha256 (bytes : List UInt8) : PyStr :=
  match known.find? fun e => e.1.utf8 = some bytes with
  | some e => e.2
  | none => letters bytes

theorem letters_inj : Function.Injective letters := fun bytes bytes' h => by
  refine List.map_injective_iff.mpr (fun b b' hb => ?_) (congrArg PyStr.points h)
  have hval : 256 + b.toNat = 256 + b'.toNat := congrArg Fin.val hb
  exact UInt8.toNat_inj.mp (by omega)

theorem letters_ne {e : PyStr × PyStr} (he : e ∈ known) (bytes : List UInt8) :
    e.2 ≠ letters bytes := by
  have hhead : ∀ e ∈ known, e.2.points.head?.any (fun p => p.val < 256) = true := by decide
  intro h
  have hdigest := hhead e he
  rw [h] at hdigest
  rcases bytes with _ | ⟨b, bytes⟩
  · cases hdigest
  · have hp : 256 + b.toNat < 256 := of_decide_eq_true hdigest
    omega

theorem knownSha256_cases (bytes : List UInt8) :
    (∃ e ∈ known, e.1.utf8 = some bytes ∧ knownSha256 bytes = e.2) ∨
      knownSha256 bytes = letters bytes := by
  rw [knownSha256]
  split
  · rename_i e hfind
    have hutf8 : e.1.utf8 = some bytes := by simpa using List.find?_some hfind
    exact Or.inl ⟨e, List.mem_of_find?_eq_some hfind, hutf8, rfl⟩
  · exact Or.inr rfl

theorem knownSha256_of_mem {e : PyStr × PyStr} (he : e ∈ known) {bytes : List UInt8}
    (hbytes : e.1.utf8 = some bytes) : knownSha256 bytes = e.2 := by
  have htexts : (known.map Prod.fst).Nodup := by decide
  rw [knownSha256]
  split
  · rename_i e' hfind
    have hutf8 : e'.1.utf8 = some bytes := by simpa using List.find?_some hfind
    rw [List.inj_on_of_nodup_map htexts (List.mem_of_find?_eq_some hfind) he
      (utf8_inj hutf8 hbytes)]
  · rename_i hfind
    exact absurd (decide_eq_true hbytes) (List.find?_eq_none.mp hfind e he)

theorem knownSha256_inj : Function.Injective knownSha256 := by
  have hdigests : (known.map Prod.snd).Nodup := by decide
  intro bytes bytes' h
  rcases knownSha256_cases bytes with ⟨e, he, hutf8, hdigest⟩ | hdigest <;>
    rcases knownSha256_cases bytes' with ⟨e', he', hutf8', hdigest'⟩ | hdigest' <;>
    rw [hdigest, hdigest'] at h
  · rw [List.inj_on_of_nodup_map hdigests he he' h] at hutf8
    exact Option.some.inj (hutf8.symm.trans hutf8')
  · exact absurd h (letters_ne he bytes')
  · exact absurd h.symm (letters_ne he' bytes)
  · exact letters_inj h

/-! ## A bundle and its own hash -/

/-- **A built bundle verifies exactly when the bundle it was built from had a version.**  Then, and
only then, does building it once more change nothing.  `json.loads` is relied on to read what was
emitted, also behind the newline `print` adds. -/
theorem verifies_iff [PyRepr] [PyParse] {sha256 : List UInt8 → PyStr}
    (hsha : Function.Injective sha256) {path file : PyStr} {out : Option PyStr}
    {bundle : List (PyStr × Json)} {report : Report}
    (hfile : PyParse.loads file = .ok (.obj bundle)) (hkeys : (bundle.map Prod.fst).Nodup)
    (hrun : run sha256 path (.text file) out = .ok report) : ∃ digest emitted,
    hashInlineBundle sha256 (.obj bundle) = .ok digest ∧ report.emitted = some emitted ∧
    emitted = (Json.obj (stamp digest bundle)).dumpsSorted ∧
    ∀ text, text = emitted ∨ text = emitted ++ "\n" →
      PyParse.loads text = .ok (Json.obj (stamp digest bundle)).sortedKeys →
      (Verifies sha256 text ↔ (Json.lookup bundle "scene_version").isSome = true) ∧
        (run sha256 path (.text text) out = .ok report ↔
          (Json.lookup bundle "scene_version").isSome = true) := by
  obtain ⟨digest, hdigest, rfl⟩ := (run_eq_ok hfile).mp hrun
  refine ⟨digest, _, hdigest, emitted_emit .., rfl, fun text _ hloads => ?_⟩
  obtain ⟨canonical, -, hcanonical, -, -⟩ := hashInlineBundle_eq_ok.mp hdigest
  have hhash : hashInlineBundle sha256 (Json.obj (stamp digest bundle)).sortedKeys = .ok digest ↔
      (Json.lookup bundle "scene_version").isSome = true := by
    rw [hashInlineBundle_eq_iff hsha hdigest, replaceSceneVersion_restamp,
      canonicalise_restamp hkeys, hcanonical, canonicalise_stamp_iff hcanonical]
  rw [Json.sortedKeys] at hloads hhash
  rw [← hhash]
  constructor
  · constructor
    · rintro ⟨kvs, version, hkvs, hversion, hverified⟩
      obtain rfl := Json.obj.inj (Except.ok.inj (hloads.symm.trans hkvs))
      rw [lookup_restamp hkeys, Option.some.injEq, Json.str.injEq] at hversion
      exact hversion ▸ hverified
    · exact fun h => ⟨_, digest, hloads, lookup_restamp hkeys digest, h⟩
  · have hdumps : ∀ digest', (Json.obj (stamp digest' (sortByKey (Json.sortedPairs
        (stamp digest bundle))))).dumpsSorted = (Json.obj (stamp digest' bundle)).dumpsSorted :=
      fun digest' => congrArg (Json.write Json.pythonNumerals) (sortedKeys_restamp hkeys ..)
    rw [run_eq_ok hloads]
    constructor
    · rintro ⟨digest', hdigest', hreport⟩
      have hemitted := congrArg Report.emitted hreport
      rw [emitted_emit, emitted_emit, hdumps, Option.some.injEq] at hemitted
      obtain rfl := dumpsSorted_stamp_inj hkeys hemitted
      exact hdigest'
    · exact fun h => ⟨digest, h, by rw [hdumps]⟩

/-- The bundle that has a version and nothing else, as it is written. -/
def versionText (version : PyStr) : PyStr :=
  "\x7b\"scene_version\":" ++ Json.quote version ++ "\x7d"

/-- Its hash. -/
def versionDigest : PyStr :=
  "sha256:a29fc02315fe4add59d053265e26ba87b5903d7362f234f9a759ef42f425a00d"

/-- The hash of the empty bundle. -/
def emptyDigest : PyStr :=
  "sha256:44136fa355b3678a1146ad16f7e8649e94fb4fc21fe77e8310c060f61caaff8a"

theorem sortedKeys_version (version : PyStr) :
    (Json.obj (pair "scene_version" (.str version))).sortedKeys
      = .obj (pair "scene_version" (.str version)) := by
  rw [Json.sortedKeys, sortByKey, pair, Json.sortedPairs, Json.sortedPairs,
    List.mergeSort_singleton]
  rfl

theorem dumps_version [PyRepr] (version : PyStr) :
    (Json.obj (pair "scene_version" (.str version))).dumpsSorted = versionText version := by
  rw [Json.dumpsSorted, sortedKeys_version, pair, Json.write, Json.writePairs, Json.writePairs,
    PyStr.join_singleton]
  exact PyStr.ext (List.append_assoc ..)

theorem hash_version [PyRepr] (version : PyStr) :
    hashInlineBundle knownSha256 (.obj (pair "scene_version" (.str version)))
      = .ok versionDigest := by
  obtain ⟨bytes, hbytes⟩ : ∃ bytes, (versionText ZERO_HASH).utf8 = some bytes := ⟨_, rfl⟩
  refine hashInlineBundle_eq_ok.mpr ⟨versionText ZERO_HASH, bytes, ?_, hbytes, ?_⟩
  · have hzeroed : replaceSceneVersion (.obj (pair "scene_version" (.str version)))
        = .obj (pair "scene_version" (.str ZERO_HASH)) := rfl
    rw [hzeroed, pair]
    refine canonicalise_obj_eq_ok.mpr ⟨List.forall_mem_singleton.mpr ⟨_, rfl⟩, ?_⟩
    rw [sortByKey, List.mergeSort_singleton]
    rfl
  · rw [knownSha256_of_mem (List.mem_cons_of_mem _ List.mem_cons_self) hbytes]
    rfl

theorem hash_empty [PyRepr] : hashInlineBundle knownSha256 (.obj []) = .ok emptyDigest := by
  obtain ⟨bytes, hbytes⟩ : ∃ bytes, ("\x7b\x7d" : PyStr).utf8 = some bytes := ⟨_, rfl⟩
  refine hashInlineBundle_eq_ok.mpr ⟨"\x7b\x7d", bytes, ?_, hbytes, ?_⟩
  · have hzeroed : replaceSceneVersion (.obj []) = .obj [] := rfl
    rw [hzeroed]
    refine canonicalise_obj_eq_ok.mpr ⟨List.forall_mem_nil _, ?_⟩
    rw [sortByKey, List.mergeSort_nil]
    rfl
  · rw [knownSha256_of_mem List.mem_cons_self hbytes]
    rfl

/-- The empty bundle is stamped with a hash that is not the one of what is written. -/
theorem emptyBundle_unverified :
    letI := PyRepr.plain
    letI := PyParse.both "\x7b\x7d" (.obj []) (versionText emptyDigest)
      (.obj (pair "scene_version" (.str emptyDigest)))
    ∃ report, run knownSha256 "bundle.json" (.text "\x7b\x7d") none = .ok report ∧
      report.emitted = some (versionText emptyDigest) ∧
      ¬ Verifies knownSha256 (versionText emptyDigest) ∧
      run knownSha256 "bundle.json" (.text (versionText emptyDigest)) none ≠ .ok report := by
  let := PyRepr.plain
  let := PyParse.both "\x7b\x7d" (.obj []) (versionText emptyDigest)
    (.obj (pair "scene_version" (.str emptyDigest)))
  have hempty : PyParse.loads "\x7b\x7d" = .ok (.obj []) := rfl
  have hbuilt : PyParse.loads (versionText emptyDigest)
      = .ok (.obj (pair "scene_version" (.str emptyDigest))) := rfl
  have hne : emptyDigest ≠ versionDigest := by decide
  refine ⟨_, (run_eq_ok hempty).mpr ⟨emptyDigest, hash_empty, rfl⟩, ?_, ?_, ?_⟩
  · rw [emitted_emit]
    exact congrArg some (dumps_version emptyDigest)
  · rintro ⟨bundle, version, hloads, hversion, hverified⟩
    obtain rfl := Json.obj.inj (Except.ok.inj (hbuilt.symm.trans hloads))
    obtain rfl := Json.str.inj (Option.some.inj hversion)
    exact hne (Except.ok.inj (hverified.symm.trans (hash_version _)))
  · intro hrun
    obtain ⟨digest, hdigest, hreport⟩ := (run_eq_ok hbuilt).mp hrun
    obtain rfl := Except.ok.inj (hdigest.symm.trans (hash_version _))
    have hemitted := congrArg Report.emitted hreport
    rw [emitted_emit, emitted_emit, Option.some.injEq] at hemitted
    have hstamp : stamp versionDigest (pair "scene_version" (.str emptyDigest))
        = stamp versionDigest [] := rfl
    have hkeys : (([] : List (PyStr × Json)).map Prod.fst).Nodup := List.nodup_nil
    rw [hstamp] at hemitted
    exact hne (dumpsSorted_stamp_inj hkeys hemitted)

/-- A bundle that had a version. -/
theorem verifies_iff_versioned :
    letI := PyRepr.plain
    letI := PyParse.both (versionText "v1") (.obj (pair "scene_version" (.str "v1")))
      (versionText versionDigest) (.obj (pair "scene_version" (.str versionDigest)))
    Verifies knownSha256 (versionText versionDigest) ∧
      run knownSha256 "bundle.json" (.text (versionText versionDigest)) none
        = run knownSha256 "bundle.json" (.text (versionText "v1")) none := by
  let := PyRepr.plain
  let := PyParse.both (versionText "v1") (.obj (pair "scene_version" (.str "v1")))
    (versionText versionDigest) (.obj (pair "scene_version" (.str versionDigest)))
  have hfile : PyParse.loads (versionText "v1") = .ok (.obj (pair "scene_version" (.str "v1"))) :=
    rfl
  have hrun : run knownSha256 "bundle.json" (.text (versionText "v1")) none = .ok _ :=
    (run_eq_ok hfile).mpr ⟨versionDigest, hash_version "v1", rfl⟩
  obtain ⟨digest, emitted, hdigest, -, hdumps, hread⟩ :=
    verifies_iff knownSha256_inj hfile (List.nodup_singleton _) hrun
  obtain rfl := Except.ok.inj (hdigest.symm.trans (hash_version "v1"))
  have hstamp : stamp versionDigest (pair "scene_version" (.str "v1"))
      = pair "scene_version" (.str versionDigest) := rfl
  rw [hstamp, dumps_version] at hdumps
  rw [hstamp, sortedKeys_version] at hread
  obtain ⟨hverifies, hsame⟩ := hread (versionText versionDigest) (Or.inl hdumps.symm) rfl
  exact ⟨hverifies.mpr rfl, (hsame.mpr rfl).trans hrun.symm⟩

/-- **What is built is canonical exactly when both serialisers show its numbers alike.**  Zeroing
the version in it leaves what was hashed exactly when, moreover, the bundle had a version. -/
theorem canonical_iff [PyRepr] [PyParse] (hlayout : ReprLayout)
    {sha256 : List UInt8 → PyStr} (hsha : Function.Injective sha256) {path file : PyStr}
    {out : Option PyStr} {bundle : List (PyStr × Json)} {report : Report}
    (hfile : PyParse.loads file = .ok (.obj bundle)) (hbundle : (Json.obj bundle).Proper)
    (hrun : run sha256 path (.text file) out = .ok report) :
    ∃ digest before behind, hashInlineBundle sha256 (.obj bundle) = .ok digest ∧
      report.emitted = some (before ++ Json.quote digest ++ behind) ∧
      (∀ version, (Json.obj (stamp version bundle)).dumpsSorted
        = before ++ Json.quote version ++ behind) ∧
      (canonicalise (.obj (stamp digest bundle)) = .ok (before ++ Json.quote digest ++ behind) ↔
        ∀ e ∈ bundle, e.1 ≠ "scene_version" → e.2.Numbers NumberAlike) ∧
      ((before ++ Json.quote ZERO_HASH ++ behind).utf8.map (fun bytes => "sha256:" ++ sha256 bytes)
          = some digest ↔
        (∀ e ∈ bundle, e.1 ≠ "scene_version" → e.2.Numbers NumberAlike) ∧
          (Json.lookup bundle "scene_version").isSome = true) := by
  obtain ⟨digest, hdigest, rfl⟩ := (run_eq_ok hfile).mp hrun
  obtain ⟨before, behind, hplace⟩ :=
    Json.exists_dumps_around Json.pythonNumerals hbundle.1 "scene_version"
  have hdumps : ∀ version, (Json.obj (stamp version bundle)).dumpsSorted
      = before ++ Json.quote version ++ behind := hplace
  have hproper : ∀ version, (Json.obj (stamp version bundle)).Proper := fun version =>
    proper_assign hbundle _ (v := .str version) trivial
  obtain ⟨hashed, bytes, hhashed, hutf8, hsha256⟩ := hashInlineBundle_eq_ok.mp hdigest
  refine ⟨digest, before, behind, hdigest, by rw [emitted_emit, hdumps], hdumps, ?_, ?_⟩
  · obtain ⟨text, htext⟩ := exists_canonicalise_stamp hbundle.1 hhashed digest
    rw [← numberAlike_stamp_iff hbundle.1 digest,
      ← dumpsSorted_eq_iff hlayout (hproper digest) htext, htext, hdumps,
      Except.ok.injEq, eq_comm]
  · have hzeroed : (before ++ Json.quote ZERO_HASH ++ behind).utf8.map
        (fun bytes => "sha256:" ++ sha256 bytes) = some digest ↔
          before ++ Json.quote ZERO_HASH ++ behind = hashed := by
      rw [← hsha256, Option.map_eq_some_iff]
      constructor
      · rintro ⟨bytes', hutf8', heq⟩
        exact utf8_inj (prefixed_inj hsha heq ▸ hutf8') hutf8
      · rintro rfl
        exact ⟨bytes, hutf8, rfl⟩
    rw [hzeroed, ← hdumps, ← numberAlike_stamp_iff hbundle.1 ZERO_HASH]
    by_cases hpresent : (Json.lookup bundle "scene_version").isSome = true
    · have htext := (canonicalise_stamp_iff hhashed).mpr hpresent
      rw [dumpsSorted_eq_iff hlayout (hproper ZERO_HASH) htext, and_iff_left hpresent]
    · -- what was hashed has some quotes less
      refine iff_of_false (fun htext => ?_) fun h => hpresent h.2
      have hquotes := quotes_lt_stamp hpresent ecmaNumerals ZERO_HASH
      rw [replaceSceneVersion_obj, if_neg hpresent] at hhashed
      rw [← Json.quotes_write _ (bothNumeric_sortedKeys hlayout (hproper ZERO_HASH)),
        ← Json.dumpsSorted, htext, canonicalise_eq_ok hhashed] at hquotes
      exact lt_irrefl _ hquotes

/-! ### A float and a version -/

/-- A bundle with a float in it. -/
def floatBundle (k : PyStr) (x : PyFloat) (version : PyStr) : List (PyStr × Json) :=
  pair k (.float x) ++ pair "scene_version" (.str version)

/-- The bundle as it is written. -/
def floatText (k number version : PyStr) : PyStr :=
  "\x7b" ++ (member k number ++ "," ++ member "scene_version" (Json.quote version)) ++ "\x7d"

theorem sortedKeys_float {k : PyStr} (hk : k ≤ "scene_version") (x : PyFloat) (version : PyStr) :
    (Json.obj (floatBundle k x version)).sortedKeys = .obj (floatBundle k x version) :=
  congrArg Json.obj (sortByKey_of_pairwise (List.pairwise_pair.mpr (decide_eq_true hk)))

theorem dumps_float [PyRepr] {k : PyStr} (hk : k ≤ "scene_version") (x : PyFloat)
    (version : PyStr) : (Json.obj (floatBundle k x version)).dumpsSorted
      = floatText k (Json.floatText x) version := by
  rw [Json.dumpsSorted, sortedKeys_float hk]
  change "\x7b" ++ PyStr.join "," [member k (Json.floatText x),
    member "scene_version" (Json.quote version)] ++ "\x7d" = _
  rw [PyStr.join_cons_cons, PyStr.join_singleton]
  rfl

theorem canonicalise_float [PyRepr] {k : PyStr} (hk : k ≤ "scene_version") {x : PyFloat}
    {number : PyStr} (hx : formatNumber x = .ok number) (version : PyStr) :
    canonicalise (.obj (floatBundle k x version)) = .ok (floatText k number version) := by
  have hsorted : sortByKey (floatBundle k x version) = floatBundle k x version :=
    sortByKey_of_pairwise (List.pairwise_pair.mpr (decide_eq_true hk))
  have hfloat : canonicalise (.float x) = .ok number := hx
  refine canonicalise_obj_eq_ok.mpr ⟨List.forall_mem_cons.mpr ⟨⟨number, hfloat⟩,
    List.forall_mem_singleton.mpr ⟨_, rfl⟩⟩, ?_⟩
  rw [hsorted]
  change _ = "\x7b" ++ PyStr.join "," [member k (canonicalText (.float x)),
    member "scene_version" (Json.quote version)] ++ "\x7d"
  rw [PyStr.join_cons_cons, PyStr.join_singleton, canonicalText_of_ok hfloat]
  rfl

/-- The hash of `{"a":0}`. -/
def zeroDigest : PyStr :=
  "sha256:45b619e97b5d9b029af4522e9ffb02fa99ff2bf226c82ee22a7cc10269a557e8"

/-- The zero of a bundle is hashed as `0` and written as `0.0`. -/
theorem zeroBundle_uncanonical :
    letI := PyRepr.plain
    letI := PyParse.only "\x7b\"a\":0.0\x7d" (.obj (pair "a" (.float (.finite 0))))
    ∃ report, run knownSha256 "bundle.json" (.text "\x7b\"a\":0.0\x7d") none = .ok report ∧
      report.emitted = some (floatText "a" "0.0" zeroDigest) ∧
      canonicalise (.obj (stamp zeroDigest (pair "a" (.float (.finite 0)))))
        = .ok (floatText "a" "0" zeroDigest) ∧
      floatText "a" "0.0" zeroDigest ≠ floatText "a" "0" zeroDigest := by
  let := PyRepr.plain
  let := PyParse.only "\x7b\"a\":0.0\x7d" (.obj (pair "a" (.float (.finite 0))))
  have hk : ("a" : PyStr) ≤ "scene_version" := by decide
  have hzero : formatNumber (.finite 0) = .ok "0" := by rw [formatNumber, if_pos rfl]
  have hhash : hashInlineBundle knownSha256 (.obj (pair "a" (.float (.finite 0))))
      = .ok zeroDigest := by
    obtain ⟨bytes, hbytes⟩ : ∃ bytes, ("\x7b\"a\":0\x7d" : PyStr).utf8 = some bytes := ⟨_, rfl⟩
    refine hashInlineBundle_eq_ok.mpr ⟨"\x7b\"a\":0\x7d", bytes, ?_, hbytes, ?_⟩
    · have hfloat : canonicalise (.float (.finite 0)) = .ok "0" := hzero
      have hzeroed : replaceSceneVersion (.obj (pair "a" (.float (.finite 0))))
          = .obj [("a", .float (.finite 0))] := rfl
      rw [hzeroed]
      refine canonicalise_obj_eq_ok.mpr ⟨List.forall_mem_singleton.mpr ⟨_, hfloat⟩, ?_⟩
      rw [sortByKey, List.mergeSort_singleton, List.map_singleton, canonicalText_of_ok hfloat]
      rfl
    · rw [knownSha256_of_mem (List.mem_cons_of_mem _ (List.mem_cons_of_mem _
        List.mem_cons_self)) hbytes]
      rfl
  have hstamp : stamp zeroDigest (pair "a" (.float (.finite 0)))
      = floatBundle "a" (.finite 0) zeroDigest := rfl
  refine ⟨_, (run_eq_ok rfl).mpr ⟨zeroDigest, hhash, rfl⟩, ?_, ?_, by decide⟩
  · rw [emitted_emit, hstamp, dumps_float hk]
    rfl
  · rw [hstamp]
    exact canonicalise_float hk hzero zeroDigest

/-- The hash of `{"half":0.5}` with a version. -/
def halfDigest : PyStr :=
  "sha256:bdd4425a9ec0a35024af05c75f45940b4def776af160964cbea07bdf1369e6a5"

/-- A bundle that is canonical once it is built. -/
theorem canonical_iff_half :
    letI := PyRepr.decimal
    letI := PyParse.only (floatText "half" "0.5" "v1")
      (.obj (floatBundle "half" (.finite (1 / 2)) "v1"))
    ∃ report text, run knownSha256 "bundle.json" (.text (floatText "half" "0.5" "v1")) none
        = .ok report ∧ report.emitted = some text ∧
      canonicalise (.obj (stamp halfDigest (floatBundle "half" (.finite (1 / 2)) "v1")))
        = .ok text := by
  let := PyRepr.decimal
  let := PyParse.only (floatText "half" "0.5" "v1")
    (.obj (floatBundle "half" (.finite (1 / 2)) "v1"))
  have hk : ("half" : PyStr) ≤ "scene_version" := by decide
  have hpos : (0 : ℚ) < 1 / 2 := by norm_num
  have hrepr : PyRepr.decimal.float (.finite (1 / 2)) = "0.5" := by
    have hread : shortestDigits (PyRepr.exact.float (.finite (1 / 2))) = .ok ("5", 0) := by
      have htext : PyRepr.exact.float (.finite (1 / 2)) = "0.5" := if_pos rfl
      rw [htext]
      rfl
    rw [(decimal_of_read hpos hread).1]
    rfl
  have hread : shortestDigits (PyRepr.float (.finite |1 / 2|)) = .ok ("5", 0) := by
    rw [abs_of_pos hpos]
    change shortestDigits (PyRepr.decimal.float (.finite (1 / 2))) = _
    rw [hrepr]
    rfl
  have hhalf : formatNumber (.finite (1 / 2)) = .ok "0.5" := by
    rw [formatNumber_of_read hpos.ne' hread, decide_eq_false (not_lt.mpr hpos.le)]
    rfl
  have hhash : hashInlineBundle knownSha256 (.obj (floatBundle "half" (.finite (1 / 2)) "v1"))
      = .ok halfDigest := by
    obtain ⟨bytes, hbytes⟩ : ∃ bytes, (floatText "half" "0.5" ZERO_HASH).utf8 = some bytes :=
      ⟨_, rfl⟩
    refine hashInlineBundle_eq_ok.mpr ⟨floatText "half" "0.5" ZERO_HASH, bytes, ?_, hbytes, ?_⟩
    · exact canonicalise_float hk hhalf ZERO_HASH
    · rw [knownSha256_of_mem (List.mem_cons_of_mem _ (List.mem_cons_of_mem _
        (List.mem_cons_of_mem _ List.mem_cons_self))) hbytes]
      rfl
  have hbundle : (Json.obj (floatBundle "half" (.finite (1 / 2)) "v1")).Proper :=
    ⟨by decide, ⟨1 / 2, rfl, isDouble_half⟩, trivial, trivial⟩
  have hfile : PyParse.loads (floatText "half" "0.5" "v1")
      = .ok (.obj (floatBundle "half" (.finite (1 / 2)) "v1")) := if_pos rfl
  have hrun : run knownSha256 "bundle.json" (.text (floatText "half" "0.5" "v1")) none = .ok _ :=
    (run_eq_ok hfile).mpr ⟨halfDigest, hhash, rfl⟩
  obtain ⟨digest, before, behind, hdigest, hemitted, -, hcanonical, -⟩ :=
    canonical_iff layout_decimal knownSha256_inj hfile hbundle hrun
  obtain rfl := Except.ok.inj (hdigest.symm.trans hhash)
  refine ⟨_, _, hrun, hemitted, hcanonical.mpr fun e he hne => ?_⟩
  rcases List.mem_cons.mp he with rfl | he
  · exact ⟨1 / 2, "5", 0, rfl, hpos.ne', hread, Or.inl (by decide)⟩
  · exact absurd (congrArg Prod.fst (List.mem_singleton.mp he)) hne

end Lumencast.Build
