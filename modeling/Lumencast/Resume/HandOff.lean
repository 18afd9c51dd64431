import Lumencast.Resume.Log

/-!
# Resume/HandOff — records up to a point, deltas from there

A client that resumes is given records out of the ring and from then on reads its queue.  On a scene
nobody is moved away from, the counter counts emissions and nothing else, so the two halves meet:
the records end at the counter, the deltas start right after it, and each number turns up once.
-/

namespace Lumencast

open Machinery

/-- The number of a delta. -/
def Frame.deltaNumber? : Frame → Option ℤ
  | .delta f => some f.seq
  | _ => none

/-- The numbers of the deltas put in a queue, in order. -/
def Subscription.deltaNumbers (sub : Subscription) : List ℤ :=
  sub.frames.filterMap Frame.deltaNumber?

namespace Server

/-- The emissions of `c`, noted one after the other. -/
def logOf (c : SceneRef) (_ : Server) (log : List Emission) : Act → List Emission
  | .post c' patches cause =>
      if c' = c then log ++ [⟨Scene.wirePatches patches.entries, cause⟩] else log
  | _ => log

/-- What `c` emits in the course of a run. -/
def emissions (c : SceneRef) (ops : List Op) : List Emission :=
  (run (watch (logOf c)) ({}, []) ops).2

theorem emissions_concat (c : SceneRef) (ops : List Op) (op : Op) : emissions c (ops ++ [op])
    = logOf c (after ops) (emissions c ops) ((after ops).act op) := by
  have hkit : (run (watch (logOf c)) ({}, []) ops).1 = after ops :=
    map_run (fun _ _ => rfl) ops (({} : Server), ([] : List Emission))
  rw [emissions, run_concat, watch, hkit]
  rfl

/-- A step that moves nobody away from `c`. -/
def Stays (c : SceneRef) (k : Server) (op : Op) : Prop := ∀ next, k.act op ≠ .move c next

/-- Only a switch moves anybody. -/
theorem stays_scene (c : SceneRef) (k : Server) (c' : SceneRef) (op : SceneOp) :
    Stays c k (.scene c' op) := by
  intro next
  rw [act]
  split
  · fun_cases Scene.act _ c' op <;> exact Act.noConfusion
  · exact Act.noConfusion

/-- `log` is what `c` has emitted so far. -/
structure Logged (k : Server) (c : SceneRef) (log : List Emission) : Prop where
  remembers : c < k.objects.next → Remembers (k.objects.get c) log
  unborn : k.objects.next ≤ c → log = []

section Logging

variable {k k' : Server} {c : SceneRef} {log : List Emission}

/-- A scene that is made in a quiet step starts with an empty log. -/
theorem Logged.quiet (hlog : Logged k c log) (h : Quiet k k') : Logged k' c log where
  remembers hc := by
    by_cases hold : c < k.objects.next
    · exact (hlog.remembers hold).congr (h.seq c hold) (h.replay c hold)
    · obtain ⟨hseq, hreplay⟩ := h.fresh c (not_lt.mp hold) hc
      rw [hlog.unborn (not_lt.mp hold)]
      exact .of_fresh hseq hreplay
  unborn hc := hlog.unborn (h.next_le.trans hc)

/-- An emission adds to the log of its scene, and to no other. -/
theorem Logged.post (hlog : Logged k c log) {c₀ : SceneRef} (hc₀ : c₀ < k.objects.next)
    (patches : Dict PyStr Json) (cause : Option Cause) :
    Logged (k.post c₀ patches cause) c (logOf c k log (.post c₀ patches cause)) where
  remembers hc := by
    have hrem := hlog.remembers hc
    rw [scene_post, logOf]
    by_cases heq : c = c₀
    · subst heq
      rw [if_pos rfl, if_pos rfl]
      exact hrem.emitted patches cause
    · rw [if_neg heq, if_neg (Ne.symm heq)]
      exact hrem
  unborn hc := by
    have hne : c₀ ≠ c := fun heq => absurd (heq ▸ hc₀) (not_lt.mpr hc)
    rw [logOf, if_neg hne]
    exact hlog.unborn hc

theorem Did.logged {a : Act} (h : Did k a k') (hstay : ∀ next, a ≠ .move c next)
    (hlog : Logged k c log) : Logged k' c (logOf c k log a) := by
  rcases h with h | ⟨live, opening, -, -⟩ | ⟨cause, hc₀, -⟩ | ⟨-, -⟩ | ⟨active, -, -, hne, hsome⟩
  · exact hlog.quiet h
  · exact ⟨fun hc => (hlog.remembers hc).congr (seq_attach ..) (replay_attach ..), hlog.unborn⟩
  · exact hlog.post hc₀ _ cause
  · exact ⟨fun hc => (hlog.remembers hc).congr (seq_seed ..) (replay_seed ..), hlog.unborn⟩
  · rename_i prev next
    have hprev : c ≠ prev := fun heq => hstay next (heq ▸ rfl)
    exact ⟨fun hc => (hlog.remembers hc).congr (seq_move_of_ne active hsome hne hprev)
      (replay_move active hsome hne c), hlog.unborn⟩

end Logging

theorem logged_after {c : SceneRef} {ops : List Op} (hstay : Steps step (Stays c) {} ops) :
    Logged (after ops) c (emissions c ops) := by
  induction ops using List.reverseRecOn with
  | nil => exact ⟨fun hc => absurd hc (Nat.not_lt_zero c), fun _ => rfl⟩
  | append_singleton ops op ih =>
    obtain ⟨hops, hop⟩ := steps_concat.mp hstay
    rw [emissions_concat, after, run_concat]
    exact (did (after ops) op).logged hop (ih hops)

/-! ## After the hand-off

Attached at `n`, a subscriber is in line as long as each emission reaches it once.  Nothing but
an emission draws a number, on a scene nobody is moved away from. -/

/-- The subscriber `r` of `c`, attached when the counter stood at `n`, is sent each emission
once. -/
structure InLine (k : Server) (c : SceneRef) (r : SubRef) (n : ℤ) : Prop where
  born : c < k.objects.next
  attached : r < k.subs.next
  owner : ∀ c', k.Owns c' r → c' = c
  numbers : (k.subs.get r).stale = false → ∃ m : ℕ,
    (k.subs.get r).deltaNumbers = consecutive (n + 1) m ∧
      (k.Owns c r → (k.objects.get c).currentSeq = n + m)

/-- What an emission adds to the numbers. -/
theorem deltaNumbers_deliver {sc : Scene} {sub : Subscription} {patches : Dict PyStr Json}
    {cause : Option Cause} (hroom : sub.HasRoom) :
    ((sc.emitted patches cause).deliver patches cause sub).deltaNumbers
      = sub.deltaNumbers ++ [sc.currentSeq + 1] := by
  rw [Subscription.deltaNumbers, Scene.deliver, Subscription.sendDelta_of_hasRoom hroom,
    Subscription.frames_sendOrDrop, if_pos hroom, List.filterMap_append]
  rfl

/-- A snapshot adds nothing to them. -/
theorem deltaNumbers_sendOrDrop_snapshot (sc : Scene) (sub : Subscription) :
    (sub.sendOrDrop sc.snapshotLetter).deltaNumbers = sub.deltaNumbers := by
  rw [Subscription.deltaNumbers, Subscription.frames_sendOrDrop, List.filterMap_append]
  split
  · exact List.append_nil _
  · exact List.append_nil _

section InLine

variable {k k' : Server} {c : SceneRef} {r : SubRef} {n : ℤ}

/-- A step that neither draws a number on `c` nor sends `r` a delta. -/
theorem InLine.kept (hr : InLine k c r n) (hnext : k.objects.next ≤ k'.objects.next)
    (hsubs : k.subs.next ≤ k'.subs.next) (howns : ∀ c', k'.Owns c' r → k.Owns c' r)
    (hseq : (k'.objects.get c).seq = (k.objects.get c).seq)
    (hsub : (k'.subs.get r).stale = false → (k.subs.get r).stale = false ∧
      (k'.subs.get r).deltaNumbers = (k.subs.get r).deltaNumbers) : InLine k' c r n where
  born := hr.born.trans_le hnext
  attached := hr.attached.trans_le hsubs
  owner c' ho := hr.owner c' (howns c' ho)
  numbers hstale := by
    obtain ⟨hstale', hnumbers⟩ := hsub hstale
    obtain ⟨m, hm, hcur⟩ := hr.numbers hstale'
    refine ⟨m, hnumbers.trans hm, fun ho => ?_⟩
    rw [Scene.currentSeq, hseq]
    exact hcur (howns c ho)

theorem InLine.quiet (hr : InLine k c r n) (h : Quiet k k') : InLine k' c r n := by
  have hsame := h.history r
  refine hr.kept h.next_le h.subs_next.ge (fun c' => h.owns c' r) (h.seq c hr.born) fun hstale =>
    ⟨hsame.stale ▸ hstale, ?_⟩
  rw [Subscription.deltaNumbers, hsame.frames]
  rfl

theorem InLine.attach (hr : InLine k c r n) (c₀ : SceneRef) (live : Bool) (opening : Opening) :
    InLine (k.attach c₀ live opening) c r n := by
  have hold : r ≠ k.subs.next := hr.attached.ne
  refine hr.kept le_rfl (Nat.le_succ _) (fun c' ho => ?_) (seq_attach ..) fun hstale => ?_
  · rcases (owns_attach ..).mp ho with ⟨-, hnew⟩ | ho
    · exact absurd hnew hold
    · exact ho
  · rw [sub_attach_of_ne _ _ _ _ hold] at hstale ⊢
    exact ⟨hstale, rfl⟩

/-- An emission of `c` is the next number in line; of another scene, `r` hears nothing. -/
theorem InLine.post (hr : InLine k c r n) (c₀ : SceneRef) (patches : Dict PyStr Json)
    (cause : Option Cause) : InLine (k.post c₀ patches cause) c r n := by
  refine ⟨hr.born, hr.attached, fun c' ho => hr.owner c' ((owns_post ..).mp ho), fun hstale => ?_⟩
  rw [sub_post] at hstale ⊢
  rw [scene_post, owns_post]
  by_cases hown : k.Owns c₀ r
  · obtain rfl := hr.owner c₀ hown
    rw [if_pos hown] at hstale ⊢
    obtain ⟨hstale', hroom⟩ := Scene.stale_deliver.mp hstale
    obtain ⟨m, hnumbers, hcur⟩ := hr.numbers hstale'
    have hnow : (k.objects.get c₀).currentSeq = n + m := hcur hown
    refine ⟨m + 1, ?_, fun _ => ?_⟩
    · rw [deltaNumbers_deliver hroom, hnumbers, hnow, consecutive_succ]
      congr 2
      omega
    · have hnext : ((k.objects.get c₀).emitted patches cause).currentSeq
          = (k.objects.get c₀).currentSeq + 1 := rfl
      rw [if_pos rfl, hnext, hnow]
      omega
  · rw [if_neg hown] at hstale ⊢
    obtain ⟨m, hnumbers, hcur⟩ := hr.numbers hstale
    refine ⟨m, hnumbers, fun ho => ?_⟩
    have hne : c ≠ c₀ := fun heq => hown (heq ▸ ho)
    rw [if_neg hne]
    exact hcur ho

theorem InLine.seed (hr : InLine k c r n) (c₀ : SceneRef) (patches : Dict PyStr Json) :
    InLine (k.seed c₀ patches) c r n := by
  refine hr.kept le_rfl le_rfl (fun c' => (owns_seed ..).mp) (seq_seed ..) fun hstale => ?_
  rw [sub_seed] at hstale ⊢
  split at hstale
  · rename_i hown
    rw [if_pos hown]
    exact ⟨(Subscription.hasRoom_of_stale hstale).2, deltaNumbers_sendOrDrop_snapshot ..⟩
  · rename_i hown
    rw [if_neg hown]
    exact ⟨hstale, rfl⟩

/-- Nobody is moved away from `c`, so `r` is not moved. -/
theorem InLine.move (hr : InLine k c r n) (active : PyStr) {prev next : SceneRef}
    (hne : prev ≠ next) (hsome : k.MovesSome prev) (hprev : c ≠ prev) :
    InLine (k.move active prev next) c r n := by
  have hstays : ¬ k.Moves prev r := fun hm => hprev (hr.owner prev hm.1).symm
  refine hr.kept le_rfl (subs_next_move active hsome).ge (fun c' ho => ?_)
    (seq_move_of_ne active hsome hne hprev) fun hstale => ?_
  · rcases (owns_move active hsome hne c' r).mp ho with ⟨-, hm⟩ | ⟨ho, -⟩
    · exact absurd hm hstays
    · exact ho
  · rw [sub_move active hsome, if_neg hstays] at hstale ⊢
    exact ⟨hstale, rfl⟩

theorem Did.inLine {a : Act} (h : Did k a k') (hstay : ∀ next, a ≠ .move c next)
    (hr : InLine k c r n) : InLine k' c r n := by
  rcases h with h | ⟨live, opening, -, -⟩ | ⟨cause, -, -⟩ | ⟨-, -⟩ | ⟨active, -, -, hne, hsome⟩
  · exact hr.quiet h
  · exact hr.attach _ live opening
  · exact hr.post _ _ cause
  · exact hr.seed _ _
  · rename_i prev next
    exact hr.move active hne hsome fun heq => hstay next (heq ▸ rfl)

end InLine

/-- The fresh subscriber, before anything is emitted. -/
theorem inLine_attach {k : Server} (hwf : k.Wf) {c : SceneRef} (hc : c < k.objects.next)
    (live : Bool) (opening : Opening) :
    InLine (k.attach c live opening) c k.subs.next (k.objects.get c).currentSeq where
  born := hc
  attached := Nat.lt_succ_self _
  owner c' ho := by
    rcases (owns_attach ..).mp ho with ⟨hc', -⟩ | ho
    · exact hc'
    · exact absurd (hwf.owned_lt c' _ ho) (lt_irrefl _)
  numbers _ := by
    refine ⟨0, by rw [sub_attach_next]; rfl, fun _ => ?_⟩
    rw [scene_attach, if_pos rfl]
    exact (Int.add_zero _).symm

/-- **The hand-off loses and duplicates nothing.**  On a scene nobody is ever moved away from,
whatever else is done to the kit: a client last at `s` is given records exactly if `s` is between
`1` and the counter and at most `256` behind it; the records are the emissions numbered from `s + 1`
up to the counter, as they were; otherwise it is given a snapshot of the full store at the counter
and no record; and as long as it is not stale, the deltas put in its queue from then on are numbered
from right after the counter, without gap or repetition, up to the scene's counter while it is
attached. -/
theorem handOff {ops : List Op} {c : SceneRef} (hstay : Steps step (Stays c) {} ops)
    (hc : c < (after ops).objects.next) (live : Bool) (s : ℤ) :
    let k := after ops
    let sc := k.objects.get c
    let answer := (sc.subscribeWithResume k.subs live (some s)).2.1
    let attached := k.step (.scene c (.subscribeWithResume live (some s)))
    (answer.1 = none ↔ 1 ≤ s ∧ s ≤ sc.currentSeq ∧ sc.currentSeq - s ≤ 256) ∧
    (answer.1 = none → answer.2 = numbered (s + 1) ((emissions c ops).drop (s - 1).toNat) ∧
      sc.currentSeq = 1 + (emissions c ops).length) ∧
    (answer.1 ≠ none → answer =
      (some
        { sceneId := .str sc.id, sceneVersion := .str sc.version, state := sc.store.state,
          seq := sc.currentSeq },
        [])) ∧
    ∀ ops', Steps step (Stays c) attached ops' →
      ((run step attached ops').subs.get k.subs.next).stale = false →
      ∃ m : ℕ, ((run step attached ops').subs.get k.subs.next).deltaNumbers
          = consecutive (sc.currentSeq + 1) m ∧
        ((run step attached ops').Owns c k.subs.next →
          ((run step attached ops').objects.get c).currentSeq = sc.currentSeq + m) := by
  intro k sc answer attached
  have hrem : Remembers sc (emissions c ops) := (logged_after hstay).remembers hc
  have hanswer : answer = sc.resumeAnswer (some s) := rfl
  have hpath : answer.1 = none ↔ sc.resumes (some s) = true := Scene.resumeAnswer_eq_none
  refine ⟨hpath.trans (hrem.resumes_iff s), fun hnone => ?_, fun hsome => ?_, fun ops' hops' => ?_⟩
  · have hs := hpath.mp hnone
    refine ⟨?_, hrem.seq⟩
    rw [← hrem.records_eq hs, hanswer, Scene.resumeAnswer, if_pos hs]
    rfl
  · have hs : ¬ sc.resumes (some s) = true := fun h => hsome (hpath.mpr h)
    rw [hanswer, Scene.resumeAnswer, if_neg hs]
    rfl
  · have hattached : attached = k.attach c live (Scene.openingOf answer) :=
      step_subscribeWithResume hc live (some s)
    have hstart : InLine attached c k.subs.next sc.currentSeq := by
      rw [hattached]
      exact inLine_attach (wf_after ops) hc live _
    have hline : InLine (run step attached ops') c k.subs.next sc.currentSeq :=
      @Steps.invariant _ _ step (fun k' => InLine k' c k.subs.next sc.currentSeq) _ _ hstart
        (fun k' op hr hop => (did k' op).inLine hop hr) ops' hops'
    exact hline.numbers

/-- A scene emits twice. -/
def twoEmissions : List Op :=
  [.newScene "a" "v1" [] true, .scene 0 (.emit (.ofList [("x", .int 1)]) none),
    .scene 0 (.emit (.ofList [("x", .int 2)]) none)]

/-- A client last at `2` resumes with the second of two emissions. -/
theorem handOff_twoEmissions : (((after twoEmissions).objects.get 0).subscribeWithResume
      (after twoEmissions).subs true (some 2)).2.1.2
    = numbered 3 ((emissions 0 twoEmissions).drop 1) := by
  have hstay : Steps step (Stays 0) {} twoEmissions :=
    steps_cons.mpr ⟨fun _ => nofun, steps_cons.mpr ⟨stays_scene _ _ _ _, steps_cons.mpr
      ⟨stays_scene _ _ _ _, steps_nil⟩⟩⟩
  exact ((handOff hstay (by decide) true 2).2.1 rfl).1

end Server

end Lumencast
