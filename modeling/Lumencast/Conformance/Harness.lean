import Lumencast.Protocol.Codec

/-!
# Conformance/Harness — the runner's shadow of the state

The conformance runner mirrors the scene by folding `absorbServerFrame` over the frames it receives.
It reads the wire dictionaries, not the dataclasses; `absorb_frameToDict` says what that comes to on
each frame the kit encodes.
-/

namespace Lumencast

open Machinery

/-- The items a `for` loop goes through; `none` is the `TypeError` of a value that has none.  The
keys of a dict and the characters of a string are strings. -/
def iterate : Json → Option (List Json)
  | .arr xs => some xs
  | .obj kvs => some (kvs.map fun kv => .str kv.1)
  | .str s => some (s.chars.map .str)
  | _ => none

/-- An empty list is as good as a missing one to the loop over patches. -/
theorem iterate_arr (xs : List Json) :
    iterate (if (Json.arr xs).truthy then .arr xs else .arr []) = some xs := by
  cases xs <;> rfl

variable [PyRepr]

/-- One patch of a delta: set the leaf it names, if it is an object that names one. -/
def absorbPatch (state : Dict PyStr Json) : Json → Dict PyStr Json
  | .obj kvs =>
      match Json.lookup kvs "path" with
      | some path => state.set path.toStr ((Json.lookup kvs "value").getD .null)
      | none => state
  | _ => state

/-- `_absorb_server_frame`: mirror a snapshot or a delta into the shadow. -/
def absorbServerFrame (frame : List (PyStr × Json)) (state : Dict PyStr Json) :
    Option (Dict PyStr Json) :=
  match Json.lookup frame "type" with
  | some (.str t) =>
      if t = FRAME_SNAPSHOT then
        let found := (Json.lookup frame "state").getD .null
        match if found.truthy then found else .obj [] with
        | .obj kvs => some (Dict.ofList kvs)
        | _ => some state
      else if t = FRAME_DELTA then
        let found := (Json.lookup frame "patches").getD (.arr [])
        (iterate (if found.truthy then found else .arr [])).map (·.foldl absorbPatch state)
      else some state
  | _ => some state

/-- A stream of frames, absorbed one after the other. -/
def absorbStream (state : Dict PyStr Json) : List Frame → Option (Dict PyStr Json)
  | [] => some state
  | f :: fs => (absorbServerFrame (frameToDict f) state).bind (absorbStream · fs)

/-- What a frame does to the shadow. -/
def shadowAfter (state : Dict PyStr Json) : Frame → Dict PyStr Json
  | .snapshot f => f.state
  | .delta f => state.update (f.patches.map fun p => (p.path, p.value))
  | _ => state

theorem absorbPatch_patchToDict (state : Dict PyStr Json) (p : Patch) :
    absorbPatch state (patchToDict p) = state.set p.path p.value := rfl

theorem foldl_absorbPatch : ∀ (ps : List Patch) (state : Dict PyStr Json),
    (ps.map patchToDict).foldl absorbPatch state
      = state.update (ps.map fun p => (p.path, p.value))
  | [], _ => rfl
  | p :: ps, state => by
      rw [List.map_cons, List.foldl_cons, absorbPatch_patchToDict, foldl_absorbPatch ps]
      rfl

/-- **Reading a frame off the wire changes the shadow as the frame says**, and never fails. -/
theorem absorb_frameToDict (f : Frame) (state : Dict PyStr Json) :
    absorbServerFrame (frameToDict f) state = some (shadowAfter state f) := by
  rcases f with f | f | f | f | nonce | nonce | f | f | _
  · change (match if (Json.obj f.state.entries).truthy then Json.obj f.state.entries
        else .obj [] with
      | .obj kvs => some (Dict.ofList kvs)
      | _ => some state) = some f.state
    rcases hentries : f.state.entries with _ | ⟨e, es⟩
    · exact congrArg some (Dict.ext hentries.symm)
    · have hlist : Dict.ofList f.state.entries = f.state := Dict.ofList_entries f.state
      rw [hentries] at hlist
      exact congrArg some hlist
  · change (iterate (if (Json.arr (f.patches.map patchToDict)).truthy
        then .arr (f.patches.map patchToDict) else .arr [])).map (·.foldl absorbPatch state) = _
    rw [iterate_arr, Option.map_some, foldl_absorbPatch]
    rfl
  all_goals rfl

theorem absorbStream_eq : ∀ (fs : List Frame) (state : Dict PyStr Json),
    absorbStream state fs = some (fs.foldl shadowAfter state)
  | [], _ => rfl
  | f :: fs, state => by
      rw [absorbStream, absorb_frameToDict, Option.bind_some, absorbStream_eq fs, List.foldl_cons]

end Lumencast
