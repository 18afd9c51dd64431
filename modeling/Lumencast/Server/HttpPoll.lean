import Lumencast.Machinery.Nested
import Lumencast.Machinery.Template
import Lumencast.Server.Scene

/-!
# Server/HttpPoll — the polling adapter and its default flattening

The adapter emits what it polled as leaves: `flatten` turns a nested object into dotted paths.  On
an object whose keys are non-empty and free of dots, and which has no empty object inside, it loses
nothing (`flatten_leaves`).
-/

namespace Lumencast

open Machinery Grammar

/-! ## The adapter -/

/-- The path of a key, `f"{prefix}.{k}" if prefix else str(k)`. -/
def keyUnder (pre k : PyStr) : PyStr := if pre = "" then k else pre ++ "." ++ k

mutual

/-- `_flatten`. -/
def flatten (value : Json) (pre : PyStr) : Dict PyStr Json :=
  match value with
  | .obj kvs => flattenPairs kvs pre .empty
  | v => Dict.empty.set (if pre = "" then "value" else pre) v

/-- The loop of `_flatten` over the pairs of an object, `out` being what it has so far. -/
def flattenPairs (kvs : List (PyStr × Json)) (pre : PyStr) (out : Dict PyStr Json) :
    Dict PyStr Json :=
  match kvs with
  | [] => out
  | (k, v) :: kvs =>
      let key := keyUnder pre k
      flattenPairs kvs pre
        (if v.isObj then out.update (flatten v key).entries else out.set key v)

end

/-- One poll that got a body: its patches, by `transform` if there is one, are emitted unless there
are none. -/
def Scene.polled (sc : Scene) (subs : Subs) (transform : Option (Json → Dict PyStr Json))
    (body : Json) : Except PyError (Scene × Subs) :=
  let patches := match transform with
    | some f => f body
    | none => flatten body ""
  if patches.isEmpty then .ok (sc, subs) else sc.emit subs patches none

/-! ## The object as a nested dictionary

`Machinery/Nested` knows how nested dictionaries and lists of leaves correspond.  All that has to
be said here is how an object is one. -/

mutual

/-- A JSON value as a nested dictionary: its objects are the nodes. -/
def Json.nested : Json → Nested PyStr Json
  | .obj kvs => .node (nestedPairs kvs)
  | v => .leaf v

/-- The pairs of an object, each as a named child. -/
def nestedPairs : List (PyStr × Json) → List (PyStr × Nested PyStr Json)
  | [] => []
  | (k, v) :: kvs => (k, v.nested) :: nestedPairs kvs

end

mutual

/-- A nested dictionary of values as an object. -/
def Json.ofNested : Nested PyStr Json → Json
  | .leaf v => v
  | .node kids => .obj (ofNestedKids kids)

/-- The children of a node, each as a pair. -/
def ofNestedKids : List (PyStr × Nested PyStr Json) → List (PyStr × Json)
  | [] => []
  | (k, t) :: kids => (k, Json.ofNested t) :: ofNestedKids kids

end

mutual

theorem Json.ofNested_nested : ∀ v : Json, Json.ofNested v.nested = v
  | .obj kvs => congrArg Json.obj (ofNestedKids_nestedPairs kvs)
  | .null => rfl
  | .bool _ => rfl
  | .int _ => rfl
  | .float _ => rfl
  | .str _ => rfl
  | .arr _ => rfl

theorem ofNestedKids_nestedPairs : ∀ kvs, ofNestedKids (nestedPairs kvs) = kvs
  | [] => rfl
  | (k, v) :: kvs => by
      rw [nestedPairs, ofNestedKids, Json.ofNested_nested v, ofNestedKids_nestedPairs kvs]

end

/-- The leaves of an object, depth first: the chain of keys to each, and its value. -/
def objectLeaves (kvs : List (PyStr × Json)) : List (List PyStr × Json) :=
  Nested.leavesOf (nestedPairs kvs)

/-- Dotted paths nested again: each path is split at its dots. -/
def unflatten (out : Dict PyStr Json) : Json :=
  .obj (ofNestedKids (Nested.nest (out.entries.map fun e => (segments e.1, e.2))))

/-! ## Plain objects

A key with a dot in it, or an empty one, would make two leaves indistinguishable; an empty object
has no leaf at all.  Plain values have neither at any level. -/

/-- The keys of one object: distinct, and each one a segment of a path. -/
structure PlainKeys (kvs : List (PyStr × Json)) : Prop where
  nodup : (kvs.map Prod.fst).Nodup
  ne_empty : ∀ e ∈ kvs, e.1 ≠ ""
  dotless : ∀ e ∈ kvs, cp '.' ∉ e.1.points

/-- A value whose objects have plain keys at every level, and are not empty. -/
inductive Json.Plain : Json → Prop
  | leaf {v : Json} (h : v.isObj = false) : Plain v
  | obj {kvs : List (PyStr × Json)} (ne : kvs ≠ []) (keys : PlainKeys kvs)
      (inner : ∀ e ∈ kvs, Plain e.2) : Plain (.obj kvs)

theorem nested_leaf {v : Json} (h : v.isObj = false) : v.nested = .leaf v := by
  cases v with
  | obj kvs => cases h
  | _ => rfl

theorem nestedPairs_eq_map : ∀ kvs, nestedPairs kvs = kvs.map fun e => (e.1, e.2.nested)
  | [] => rfl
  | (k, v) :: kvs => by rw [nestedPairs, List.map_cons, nestedPairs_eq_map kvs]

theorem nodup_nestedPairs {kvs : List (PyStr × Json)} (h : (kvs.map Prod.fst).Nodup) :
    ((nestedPairs kvs).map Prod.fst).Nodup := by
  rw [nestedPairs_eq_map, List.map_map]
  exact h

theorem tidy_nestedPairs {kvs : List (PyStr × Json)} (h : ∀ e ∈ kvs, e.2.nested.Tidy) :
    ∀ e ∈ nestedPairs kvs, e.2.Tidy := by
  rw [nestedPairs_eq_map]
  intro e he
  obtain ⟨e', he', rfl⟩ := List.mem_map.mp he
  exact h e' he'

/-- A plain value is a tidy dictionary. -/
theorem Json.Plain.tidy {v : Json} (h : v.Plain) : v.nested.Tidy := by
  induction h with
  | leaf h => exact nested_leaf h ▸ .leaf _
  | @obj kvs ne keys inner ih =>
      refine .node ?_ (nodup_nestedPairs keys.nodup) (tidy_nestedPairs ih)
      rw [nestedPairs_eq_map]
      exact fun h => ne (List.map_eq_nil_iff.mp h)

/-- A chain of segments: none of them is empty, none has a dot in it. -/
def SegmentChain (c : List PyStr) : Prop := ∀ k ∈ c, k ≠ "" ∧ cp '.' ∉ k.points

theorem segmentChain_objectLeaves {kvs : List (PyStr × Json)} (keys : PlainKeys kvs)
    (inner : ∀ e ∈ kvs, ∀ l ∈ e.2.nested.leaves, SegmentChain l.1) :
    ∀ l ∈ objectLeaves kvs, SegmentChain l.1 := by
  intro l hl
  obtain ⟨kid, hkid, l', hl', rfl⟩ := Nested.mem_leavesOf.mp hl
  rw [nestedPairs_eq_map] at hkid
  obtain ⟨e, he, rfl⟩ := List.mem_map.mp hkid
  refine List.forall_mem_cons.mpr ⟨⟨keys.ne_empty e he, keys.dotless e he⟩, ?_⟩
  exact inner e he l' hl'

/-- **The chains of a plain value are chains of segments.** -/
theorem Json.Plain.segmentChain {v : Json} (h : v.Plain) :
    ∀ l ∈ v.nested.leaves, SegmentChain l.1 := by
  induction h with
  | leaf h =>
      rw [nested_leaf h]
      intro l hl
      rw [List.mem_singleton.mp hl]
      exact fun k hk => absurd hk List.not_mem_nil
  | obj ne keys inner ih => exact segmentChain_objectLeaves keys ih

/-! ## Dotted paths -/

theorem segments_join {c : List PyStr} (hc : SegmentChain c) (hne : c ≠ []) :
    segments (PyStr.join "." c) = c := by
  have hsplit : ([cp '.'].intercalate (c.map PyStr.points)).splitOn (cp '.')
      = c.map PyStr.points := by
    refine List.splitOn_intercalate _ (fun l hl => ?_) fun h => hne (List.map_eq_nil_iff.mp h)
    obtain ⟨k, hk, rfl⟩ := List.mem_map.mp hl
    exact (hc k hk).2
  rw [segments, PyStr.split]
  change (([cp '.'].intercalate (c.map PyStr.points)).splitOn (cp '.')).map PyStr.mk = c
  rw [hsplit, List.map_map]
  exact List.map_id c

/-- One key further down. -/
theorem keyUnder_join {c : List PyStr} (hc : SegmentChain c) (k : PyStr) :
    keyUnder (PyStr.join "." c) k = PyStr.join "." (c ++ [k]) := by
  by_cases hne : c = []
  · rw [hne, List.nil_append, PyStr.join_singleton]
    exact if_pos rfl
  · have hempty : PyStr.join "." c ≠ "" := by
      intro h
      -- the empty path has one segment, the empty one
      have hc' := segments_join hc hne
      rw [h] at hc'
      exact (hc "" (hc' ▸ List.mem_singleton.mpr rfl)).1 rfl
    have hchain : c.map PyStr.points ≠ [] := fun h => hne (List.map_eq_nil_iff.mp h)
    have hjoin := intercalate_append (lit ".") (List.cons_ne_nil k.points []) hchain
    rw [List.intercalate_singleton] at hjoin
    rw [keyUnder, if_neg hempty]
    apply PyStr.ext
    rw [PyStr.join, PyStr.join, List.map_append]
    exact hjoin.symm

/-- Leaves below a chain, each with its dotted path. -/
def dotted (c : List PyStr) (ls : List (List PyStr × Json)) : List (PyStr × Json) :=
  ls.map fun l => (PyStr.join "." (c ++ l.1), l.2)

theorem dotted_under (c : List PyStr) (k : PyStr) (ls : List (List PyStr × Json)) :
    dotted c (ls.map fun l => (k :: l.1, l.2)) = dotted (c ++ [k]) ls := by
  rw [dotted, dotted, List.map_map]
  refine List.map_congr_left fun l _ => ?_
  rw [Function.comp_apply, List.append_assoc, List.singleton_append]

/-- What a value adds to the result: its leaves, each under its path. -/
def Merges (v : Json) : Prop :=
  ∀ c, SegmentChain c → ∀ out : Dict PyStr Json,
    (if v.isObj then out.update (flatten v (PyStr.join "." c)).entries
      else out.set (PyStr.join "." c) v) = out.update (dotted c v.nested.leaves)

/-- **The loop over the pairs**, given that it does so for the value of each. -/
theorem flattenPairs_eq : ∀ {kvs : List (PyStr × Json)} {c : List PyStr} {out : Dict PyStr Json},
    PlainKeys kvs → (∀ e ∈ kvs, Merges e.2) → SegmentChain c →
      flattenPairs kvs (PyStr.join "." c) out = out.update (dotted c (objectLeaves kvs))
  | [], _, _, _, _, _ => by rw [flattenPairs]; rfl
  | (k, v) :: kvs, c, out, hkeys, hmerges, hc => by
      have hk : SegmentChain (c ++ [k]) := by
        refine List.forall_mem_append.mpr ⟨hc, List.forall_mem_singleton.mpr ?_⟩
        exact ⟨hkeys.ne_empty (k, v) List.mem_cons_self, hkeys.dotless (k, v) List.mem_cons_self⟩
      have hrest : PlainKeys kvs :=
        ⟨(List.nodup_cons.mp hkeys.nodup).2,
          fun e he => hkeys.ne_empty e (List.mem_cons_of_mem _ he),
          fun e he => hkeys.dotless e (List.mem_cons_of_mem _ he)⟩
      have hleaves : dotted c (objectLeaves ((k, v) :: kvs))
          = dotted (c ++ [k]) v.nested.leaves ++ dotted c (objectLeaves kvs) := by
        rw [objectLeaves, nestedPairs, Nested.leavesOf, dotted, List.map_append, ← dotted,
          dotted_under]
        rfl
      rw [flattenPairs, keyUnder_join hc, hmerges (k, v) List.mem_cons_self _ hk, hleaves]
      rw [flattenPairs_eq hrest (fun e he => hmerges e (List.mem_cons_of_mem _ he)) hc]
      exact List.foldl_append.symm

theorem Json.Plain.merges {v : Json} (h : v.Plain) : Merges v := by
  induction h with
  | @leaf v h =>
      intro c hc out
      rw [h, if_neg Bool.false_ne_true, nested_leaf h]
      change _ = out.set (PyStr.join "." (c ++ [])) v
      rw [List.append_nil]
  | @obj kvs ne keys inner ih =>
      intro c hc out
      rw [isObj, if_pos rfl, flatten, flattenPairs_eq keys ih hc]
      exact Dict.update_ofList out _

section PlainObject

variable {kvs : List (PyStr × Json)}

theorem segments_objectLeaves (hkeys : PlainKeys kvs) (hinner : ∀ e ∈ kvs, e.2.Plain) :
    ∀ l ∈ objectLeaves kvs, segments (PyStr.join "." l.1) = l.1 := fun l hl =>
  segments_join (segmentChain_objectLeaves hkeys (fun e he => (hinner e he).segmentChain) l hl)
    (Nested.ne_nil_of_mem_leavesOf hl)

/-- Distinct leaves have distinct paths: splitting a path gives its chain back. -/
theorem nodup_paths (hkeys : PlainKeys kvs) (hinner : ∀ e ∈ kvs, e.2.Plain) :
    ((objectLeaves kvs).map fun l => PyStr.join "." l.1).Nodup := by
  have hdistinct : ((objectLeaves kvs).map Prod.fst).Nodup :=
    Nested.nodup_leavesOf (nodup_nestedPairs hkeys.nodup) fun e he =>
      Nested.nodup_leaves (tidy_nestedPairs (fun e he => (hinner e he).tidy) e he)
  refine List.Nodup.of_map segments ?_
  rw [List.map_map]
  exact (List.map_congr_left (segments_objectLeaves hkeys hinner)).symm ▸ hdistinct

/-- **The result of `_flatten`**, leaf by leaf. -/
theorem entries_flatten (hkeys : PlainKeys kvs) (hinner : ∀ e ∈ kvs, e.2.Plain) :
    (flatten (.obj kvs) "").entries
      = (objectLeaves kvs).map fun l => (PyStr.join "." l.1, l.2) := by
  have hloop := @flattenPairs_eq kvs [] .empty hkeys
    (fun e he => (hinner e he).merges) fun k hk => absurd hk List.not_mem_nil
  rw [flatten]
  refine (congrArg Dict.entries hloop).trans (Dict.entries_update_of_fresh _ _ ?_)
  rw [Dict.entries_empty, List.nil_append, dotted, List.map_map]
  exact nodup_paths hkeys hinner

/-- **Flattening loses no leaf.**  The result has one entry for each leaf, in depth-first order, at
the path that joins its keys; no two leaves share a path; and the paths, split and nested again, are
the object. -/
theorem flatten_leaves (hkeys : PlainKeys kvs) (hinner : ∀ e ∈ kvs, e.2.Plain) :
    (flatten (.obj kvs) "").entries
        = (objectLeaves kvs).map (fun l => (PyStr.join "." l.1, l.2)) ∧
      ((objectLeaves kvs).map fun l => PyStr.join "." l.1).Nodup ∧
      unflatten (flatten (.obj kvs) "") = .obj kvs := by
  refine ⟨entries_flatten hkeys hinner, nodup_paths hkeys hinner, ?_⟩
  rw [unflatten, entries_flatten hkeys hinner, List.map_map]
  have hback : (objectLeaves kvs).map
      ((fun e => (segments e.1, e.2)) ∘ fun l => (PyStr.join "." l.1, l.2)) = objectLeaves kvs := by
    refine (List.map_congr_left fun l hl => ?_).trans (List.map_id _)
    exact Prod.ext (segments_objectLeaves hkeys hinner l hl) rfl
  rw [hback, objectLeaves, Nested.nest_leavesOf (nodup_nestedPairs hkeys.nodup)
    (tidy_nestedPairs fun e he => (hinner e he).tidy), ofNestedKids_nestedPairs]

/-- **What one poll of such an object does**: it emits one patch for each leaf, and never raises. -/
theorem polled_record (sc : Scene) (subs : Subs) (hne : kvs ≠ []) (hkeys : PlainKeys kvs)
    (hinner : ∀ e ∈ kvs, e.2.Plain) :
    ∃ sc' subs', sc.polled subs none (.obj kvs) = .ok (sc', subs') ∧
      sc'.replay = sc.replay.push ⟨sc.seq.cur + 1,
        Scene.wirePatches ((objectLeaves kvs).map fun l => (PyStr.join "." l.1, l.2)), none⟩ := by
  have hleaves : objectLeaves kvs ≠ [] :=
    Nested.leaves_ne_nil (Json.Plain.obj hne hkeys hinner).tidy
  have hsome : (flatten (.obj kvs) "").isEmpty = false := by
    rw [Dict.isEmpty, entries_flatten hkeys hinner, List.isEmpty_eq_false_iff]
    exact fun h => hleaves (List.map_eq_nil_iff.mp h)
  refine ⟨_, _, (if_neg ?_).trans (Scene.emit_eq_ok sc subs none hsome), ?_⟩
  · exact Bool.not_eq_true _ ▸ hsome
  · rw [← entries_flatten hkeys hinner]
    rfl

end PlainObject

/-- A show with two teams, one of them with a score. -/
def polledShow : List (PyStr × Json) :=
  [("title", .str "final"),
    ("home", .obj [("name", .str "A"), ("score", .obj [("goals", .int 2), ("fouls", .arr [])])]),
    ("away", .obj [("name", .null)])]

theorem flatten_leaves_polledShow :
    (flatten (.obj polledShow) "").entries.map Prod.fst
        = ["title", "home.name", "home.score.goals", "home.score.fouls", "away.name"] ∧
      unflatten (flatten (.obj polledShow) "") = .obj polledShow := by
  have hscore : (Json.obj [("goals", .int 2), ("fouls", .arr [])]).Plain :=
    .obj (List.cons_ne_nil _ _) ⟨by decide, by decide, by decide⟩
      (List.forall_mem_cons.mpr ⟨.leaf rfl, List.forall_mem_singleton.mpr (.leaf rfl)⟩)
  have hhome : (Json.obj [("name", .str "A"),
      ("score", .obj [("goals", .int 2), ("fouls", .arr [])])]).Plain :=
    .obj (List.cons_ne_nil _ _) ⟨by decide, by decide, by decide⟩
      (List.forall_mem_cons.mpr ⟨.leaf rfl, List.forall_mem_singleton.mpr hscore⟩)
  have haway : (Json.obj [("name", .null)]).Plain :=
    .obj (List.cons_ne_nil _ _) ⟨by decide, by decide, by decide⟩
      (List.forall_mem_singleton.mpr (.leaf rfl))
  have hleaves := @flatten_leaves polledShow ⟨by decide, by decide, by decide⟩
    (List.forall_mem_cons.mpr ⟨.leaf rfl,
      List.forall_mem_cons.mpr ⟨hhome, List.forall_mem_singleton.mpr haway⟩⟩)
  refine ⟨?_, hleaves.2.2⟩
  rw [hleaves.1]
  decide

end Lumencast
