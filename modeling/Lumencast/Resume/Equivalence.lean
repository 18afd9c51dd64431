import Lumencast.Machinery.LastWrite
import Lumencast.Resume.Log

/-!
# Resume/Equivalence — records instead of a snapshot

A client that resumes is brought up to date with emissions, and a scene's content changes in other
ways too: `set` seeds it, `reset` clears it, and neither touches the counter or the ring.  The
records are as good as a snapshot exactly when no path was last written that way since the client
left, or when the write made no difference (`resume_iff`).
-/

namespace Lumencast

open Machinery

/-- A change of a scene's content. -/
inductive Write where
  | emission (patches : Dict PyStr Json) (cause : Option Cause)
  | seeding (patches : Dict PyStr Json)
  | clearing

namespace Write

/-- Whether the write is numbered and remembered. -/
def isEmission : Write → Bool
  | .emission _ _ => true
  | _ => false

/-- What the write leaves at a path; `none` where it does not reach. -/
def touch : Write → PyStr → Option (Option Json)
  | .emission patches _, path => (patches.get? path).map some
  | .seeding patches, path => (patches.get? path).map some
  | .clearing, _ => some none

/-- The content after the write. -/
def apply (d : Dict PyStr Json) : Write → Dict PyStr Json
  | .emission patches _ => d.update patches.entries
  | .seeding patches => d.update patches.entries
  | .clearing => .empty

/-- Applying a write, path by path. -/
theorem get?_apply (d : Dict PyStr Json) (w : Write) (path : PyStr) :
    (apply d w).get? path = LastWrite.write touch d.get? w path := by
  have hupdate : ∀ patches : Dict PyStr Json, (d.update patches.entries).get? path
      = ((patches.get? path).map some).getD (d.get? path) := fun patches => by
    rw [Dict.get?_update _ _ _ patches.nodup]
    change (patches.get? path).or _ = _
    rcases patches.get? path with _ | v <;> rfl
  rcases w with ⟨patches, cause⟩ | patches | _
  · exact hupdate patches
  · exact hupdate patches
  · rfl

theorem get?_foldl_apply (path : PyStr) (ws : List Write) (d : Dict PyStr Json) :
    (ws.foldl apply d).get? path = ws.foldl (LastWrite.write touch) d.get? path := by
  induction ws using List.reverseRecOn with
  | nil => rfl
  | append_singleton ws w ih =>
    rw [List.foldl_concat, List.foldl_concat, get?_apply, LastWrite.write, LastWrite.write, ih]

end Write

namespace Scene

/-- The change a call makes to the content of the scene it is made on. -/
def write (sc : Scene) : SceneOp → Option Write
  | .set patches => if patches.isEmpty then none else some (.seeding patches)
  | .emit patches cause => if patches.isEmpty then none else some (.emission patches cause)
  | .applyInput identity patches cause =>
      match sc.verdict identity patches with
      | .ok none => some (.emission (asDict patches) cause)
      | _ => none
  | .reset => some .clearing
  | _ => none

/-- The scene after a change of its content. -/
def written (sc : Scene) : Write → Scene
  | .emission patches cause => sc.emitted patches cause
  | .seeding patches => sc.seeded patches
  | .clearing => { sc with store := sc.store.reset }

/-- Two scenes with one content, one counter and one ring. -/
structure SameLog (sc sc' : Scene) : Prop where
  store : sc'.store = sc.store
  seq : sc'.seq = sc.seq
  replay : sc'.replay = sc.replay

/-- **What a call does to content, counter and ring.** -/
theorem sameLog_step (st : Scene × Subs) (op : SceneOp) :
    SameLog ((st.1.write op).elim st.1 st.1.written) (Scene.step st op).1 := by
  rcases op with version | specs | patches | ⟨patches, cause⟩ | ⟨identity, ps, cause⟩ | _ | live |
    ⟨live, since⟩ | r
  · exact ⟨rfl, rfl, rfl⟩
  · exact ⟨rfl, rfl, rfl⟩
  · rw [write, step_set]
    split <;> exact ⟨rfl, rfl, rfl⟩
  · rw [write, step_emit]
    split <;> exact ⟨rfl, rfl, rfl⟩
  · rw [write]
    split
    · rename_i hv
      rw [step_applyInput_of_ok cause hv]
      exact ⟨rfl, rfl, rfl⟩
    · rename_i hv
      rw [step_applyInput_of_ne cause hv]
      exact ⟨rfl, rfl, rfl⟩
  · exact ⟨rfl, rfl, rfl⟩
  · exact ⟨rfl, rfl, rfl⟩
  · exact ⟨rfl, rfl, rfl⟩
  · change SameLog st.1 (if r < st.2.next then st.1.unsubscribe st.2 r else st).1
    split <;> exact ⟨rfl, rfl, rfl⟩

/-! ## A history, as the writes it makes

Seedings, emissions and resets all write to the store, but only emissions are remembered.  The
list of writes tells them apart. -/

/-- A fresh scene and no subscription. -/
def start (ref : SceneRef) (id version : PyStr) (operatorInputs : List InputSpec) : Scene × Subs :=
  (new ref id version operatorInputs, .blank default)

/-- The writes of a history, in order. -/
def writes (st : Scene × Subs) : List SceneOp → List Write
  | [] => []
  | op :: ops => (st.1.write op).toList ++ writes (step st op) ops

/-- The emission behind a write. -/
def emission? : Write → Option Emission
  | .emission patches cause => some ⟨wirePatches patches.entries, cause⟩
  | _ => none

/-- The content is what the writes leave. -/
theorem state_run : ∀ (ops : List SceneOp) (st : Scene × Subs), (run step st ops).1.store.state
    = (writes st ops).foldl Write.apply st.1.store.state
  | [], _ => rfl
  | op :: ops, st => by
      have hlog := sameLog_step st op
      have hone : (step st op).1.store.state
          = (st.1.write op).toList.foldl Write.apply st.1.store.state := by
        rw [hlog.store]
        rcases st.1.write op with _ | ⟨patches, cause⟩ | patches | _ <;> rfl
      rw [run_cons, state_run ops, writes, List.foldl_append, hone]

/-- The log grows by the emissions among the writes. -/
theorem remembers_run : ∀ (ops : List SceneOp) (st : Scene × Subs) {log : List Emission},
    Remembers st.1 log → Remembers (run step st ops).1 (log ++ (writes st ops).filterMap emission?)
  | [], _, log, h => (List.append_nil log).symm ▸ h
  | op :: ops, st, log, h => by
      have hlog := sameLog_step st op
      have hone : Remembers (step st op).1
          (log ++ (st.1.write op).toList.filterMap emission?) := by
        refine Remembers.congr ?_ hlog.seq hlog.replay
        rcases st.1.write op with _ | ⟨patches, cause⟩ | patches | _
        · exact (List.append_nil log).symm ▸ h
        · exact h.emitted patches cause
        · exact (List.append_nil log).symm ▸ h.congr rfl rfl
        · exact (List.append_nil log).symm ▸ h.congr rfl rfl
      rw [run_cons, writes, List.filterMap_append, ← List.append_assoc]
      exact remembers_run ops _ hone

theorem length_emissions (ws : List Write) :
    (ws.filterMap emission?).length = (ws.filter Write.isEmission).length := by
  induction ws with
  | nil => rfl
  | cons w ws ih =>
    rcases w with ⟨patches, cause⟩ | patches | _
    · exact congrArg (· + 1) ih
    · exact ih
    · exact ih

/-! ## What a client makes of the records

Records are applied one after another, like the emissions they are of.  What they lack are the
writes in between that were no emissions. -/

/-- Two maps with one value at each path; the order of the paths does not matter. -/
def SameContent (d e : Dict PyStr Json) : Prop := ∀ path, d.get? path = e.get? path

/-- A client's state after it was given records. -/
def applyRecords (client : Dict PyStr Json) (records : List ReplayRecord) : Dict PyStr Json :=
  records.foldl (fun d r => d.update (r.patches.map fun p => (p.path, p.value))) client

/-- The records of a gap carry its emissions. -/
theorem applyRecords_numbered : ∀ (ws : List Write) (n : ℤ) (client : Dict PyStr Json),
    applyRecords client (numbered n (ws.filterMap emission?))
      = (ws.filter Write.isEmission).foldl Write.apply client
  | [], _, _ => rfl
  | .emission patches cause :: ws, n, client => by
      have hpatches : (wirePatches patches.entries).map (fun p => (p.path, p.value))
          = patches.entries := by
        rw [wirePatches, List.map_map]
        exact List.map_id _
      have hrest := applyRecords_numbered ws (n + 1) (client.update patches.entries)
      rw [← hpatches] at hrest
      refine hrest.trans ?_
      rw [hpatches]
      rfl
  | .seeding _ :: ws, n, client => applyRecords_numbered ws n client
  | .clearing :: ws, n, client => applyRecords_numbered ws n client

/-- **When records are as good as a snapshot.**  Let a client leave with the content of the scene
and the scene's counter, and come back after `later`.  If it is given records, applying them leaves
it the content a snapshot would have carried — exactly when more than `256` emissions were made
meanwhile (and it is given a snapshot), or each path that was last written by a `set` or a `reset`
was left what the emissions alone leave there. -/
theorem resume_iff (ref : SceneRef) (id version : PyStr) (operatorInputs : List InputSpec)
    (pre later : List SceneOp) (live : Bool) :
    let st := run step (start ref id version operatorInputs) pre
    let st' := run step st later
    let answer := (st'.1.subscribeWithResume st'.2 live (some st.1.currentSeq)).2.1
    let ws := writes st later
    (∀ client, SameContent client st.1.store.state → answer.1 = none →
        SameContent (applyRecords client answer.2) st'.1.snapshotFrame.state) ↔
      ((ws.filter Write.isEmission).length ≤ 256 → ∀ path w,
        LastWrite.lastWriter Write.touch ws path = some w → w.isEmission = false →
        w.touch path = some (((ws.filter Write.isEmission).foldl Write.apply
          st.1.store.state).get? path)) := by
  intro st st' answer ws
  obtain ⟨log, hrem⟩ : ∃ log, Remembers st.1 log :=
    ⟨_, remembers_run pre _ (.of_fresh rfl rfl)⟩
  have hrem' : Remembers st'.1 (log ++ ws.filterMap emission?) := remembers_run later st hrem
  have hs : st.1.currentSeq = 1 + (log.length : ℤ) := hrem.seq
  have hcur : st'.1.currentSeq = 1 + log.length + (ws.filter Write.isEmission).length := by
    rw [hrem'.seq, List.length_append, length_emissions]
    omega
  -- given records: the gap is short enough, and they are its emissions
  have hanswer : answer = st'.1.resumeAnswer (some st.1.currentSeq) := rfl
  have hpath : answer.1 = none ↔ (ws.filter Write.isEmission).length ≤ 256 := by
    have hsize : DEFAULT_REPLAY_BUFFER_SIZE = 256 := rfl
    rw [hanswer, resumeAnswer_eq_none, hrem'.resumes_iff, hs, hcur]
    omega
  have hrecords : answer.1 = none → ∀ client, applyRecords client answer.2
      = (ws.filter Write.isEmission).foldl Write.apply client := by
    intro hnone client
    have hresumes := resumeAnswer_eq_none.mp (hanswer ▸ hnone)
    have hdrop : (st.1.currentSeq - 1).toNat = log.length := by omega
    rw [hanswer, resumeAnswer, if_pos hresumes]
    change applyRecords client (st'.1.replay.since st.1.currentSeq).records = _
    rw [hrem'.records_eq hresumes, hdrop, List.drop_left, applyRecords_numbered]
  -- path by path, records against snapshot
  have hcontent : ∀ client, SameContent client st.1.store.state → answer.1 = none →
      (SameContent (applyRecords client answer.2) st'.1.snapshotFrame.state ↔ ∀ path w,
        LastWrite.lastWriter Write.touch ws path = some w → w.isEmission = false →
        w.touch path = some (((ws.filter Write.isEmission).foldl Write.apply
          st.1.store.state).get? path)) := by
    intro client hclient hnone
    have hget : client.get? = st.1.store.state.get? := funext hclient
    have hstate : st'.1.snapshotFrame.state = ws.foldl Write.apply st.1.store.state :=
      state_run later st
    refine forall_congr' fun path => ?_
    rw [hrecords hnone, hstate, Write.get?_foldl_apply, Write.get?_foldl_apply,
      Write.get?_foldl_apply, hget]
    exact LastWrite.foldl_filter_eq_iff Write.touch _ Write.isEmission ws path
  constructor
  · intro h hlen
    have hnone := hpath.mpr hlen
    exact (hcontent _ (fun _ => rfl) hnone).mp (h _ (fun _ => rfl) hnone)
  · intro h client hclient hnone
    exact (hcontent client hclient hnone).mpr (h (hpath.mp hnone))

/-- A scene is seeded while a client is away. -/
def seededAway : List SceneOp := [.set (.ofList [("a", .int 1)])]

/-- **Records that are not as good**: a client that left a fresh scene resumes at `1`, is given no
record and no snapshot, and does not learn that the scene was seeded meanwhile. -/
theorem seededAway_differs :
    let st' := run step (start 0 "a" "v1" []) seededAway
    let answer := (st'.1.subscribeWithResume st'.2 true (some 1)).2.1
    answer.1 = none ∧ answer.2 = [] ∧
      ¬ SameContent (applyRecords .empty answer.2) st'.1.snapshotFrame.state := by
  intro st' answer
  have hrecords : answer.2 = [] := rfl
  refine ⟨rfl, hrecords, fun h => ?_⟩
  have hpath := h "a"
  rw [hrecords] at hpath
  cases hpath

end Scene

end Lumencast
