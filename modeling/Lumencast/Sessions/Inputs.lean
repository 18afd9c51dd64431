import Lumencast.Sessions.World

/-!
# Sessions/Inputs — where an input goes

A session gives its client's inputs to the scene it was attached to, and `set_active` may have moved
the client to another since.  `echoed_iff` compares the two: an accepted input comes back to its
sender exactly when the routing decisions of the run have left the sender at that scene, the scene
is still registered, and the sender's queue has room.
-/

namespace Lumencast

open Machinery

namespace World

variable [PyRepr]

/-- A session with the locals `l` receives the input `f`, and `apply_input` returns `None`. -/
def Accepts (w : World) (e : Event) (l : Locals) (f : Input) : Prop :=
  ∃ i ls, e = .session i (.received (.frame (.input f))) ∧
    (w.sessions.get i).phase = .running l ls ∧ ls.reader = .receiving ∧
    ((w.kit.objects.get l.scene).applyInput w.kit.subs l.identity f.patches
      (causeOf l.identity f.clientMsgId)).map (·.1) = .ok none

/-- Whenever an input is accepted, the scene it changes is registered, serves the sender, and puts
the delta in the sender's queue. -/
def Echoed (w : World) (e : Event) : Prop :=
  ∀ l f, w.Accepts e l f → ∃ c, w.kit.Registered c ∧ w.kit.Owns c l.sub ∧
    let sc := (w.kit.objects.get c).emitted (Scene.asDict f.patches) (causeOf l.identity f.clientMsgId)
    (w.step e).kit.objects.get c = sc ∧
    ((w.step e).kit.subs.get l.sub).queue.items = (w.kit.subs.get l.sub).queue.items
      ++ [some (sc.deltaLetter (Scene.wirePatches (Scene.asDict f.patches).entries)
        (causeOf l.identity f.clientMsgId))]

/-- Whenever an input is accepted, the scene of the session is where the sender was routed, is
registered, and finds room in the sender's queue. -/
def InPlace (w : World) (place : Routing) (e : Event) : Prop :=
  ∀ l f, w.Accepts e l f → place l.sub = some l.scene ∧ w.kit.Registered l.scene ∧
    (w.kit.subs.get l.sub).HasRoom

/-- A world next to the routing table of its run. -/
def track (x : World × Routing) (e : Event) : World × Routing :=
  (x.1.step e,
    match x.1.opOf e with
    | none => x.2
    | some op => x.1.kit.follow x.2 (x.1.kit.reroute op))

/-- An accepted input is a call on the scene of its session, which nothing is objected to. -/
theorem opOf_of_accepts {w : World} {e : Event} {l : Locals} {f : Input} (h : w.Accepts e l f) :
    w.opOf e = some (.scene l.scene (.applyInput l.identity f.patches
        (causeOf l.identity f.clientMsgId))) ∧
      (w.kit.objects.get l.scene).verdict l.identity f.patches = .ok none := by
  obtain ⟨i, ls, rfl, hphase, hreader, hresult⟩ := h
  refine ⟨?_, (Scene.applyInput_result ..).symm.trans hresult⟩
  rw [opOf]
  unfold Session.step?
  rw [hphase]
  dsimp only
  rw [Session.loop, if_pos hreader]
  rfl

/-- **An accepted input is an emission of the scene of its session.** -/
theorem kit_step_of_accepts {w : World} (hwf : w.Wf) {e : Event} {l : Locals} {f : Input}
    (h : w.Accepts e l f) : (w.step e).kit = w.kit.post l.scene (Scene.asDict f.patches)
      (causeOf l.identity f.clientMsgId) := by
  obtain ⟨hop, hverdict⟩ := opOf_of_accepts h
  obtain ⟨i, ls, -, hphase, -⟩ := h
  have hc : l.scene < w.kit.objects.next := hwf.scene_lt i l (by rw [hphase]; rfl)
  rw [kit_step, hop]
  exact Server.step_applyInput _ hc hverdict

/-- **One input, judged by the routing table.** -/
theorem echoed_iff_inPlace {w : World} {place : Routing} (hwf : w.Wf) (hroutes : w.kit.Routes place)
    (e : Event) : w.Echoed e ↔ w.InPlace place e := by
  refine forall₃_congr fun l f h => ?_
  have hkit := kit_step_of_accepts hwf h
  rw [hkit, ← hroutes l.scene l.sub]
  constructor
  · rintro ⟨c, hreg, ho, hscene, hqueue⟩
    have hc : c = l.scene := by
      by_contra hne
      rw [Server.scene_post, if_neg hne] at hscene
      have hseq : (w.kit.objects.get c).seq.cur = (w.kit.objects.get c).seq.cur + 1 :=
        congrArg (fun sc => sc.seq.cur) hscene
      omega
    subst hc
    refine ⟨ho, hreg, ?_⟩
    by_contra hfull
    rw [Server.sub_post, if_pos ho, Scene.queue_deliver, if_neg hfull]
      at hqueue
    have hlength := congrArg List.length hqueue
    rw [List.length_append, List.length_singleton] at hlength
    omega
  · rintro ⟨ho, hreg, hroom⟩
    refine ⟨l.scene, hreg, ho, ?_, ?_⟩
    · rw [Server.scene_post, if_pos rfl]
    · rw [Server.sub_post, if_pos ho, Scene.queue_deliver, if_pos hroom]

/-- The routing table of a run follows its subscriber sets. -/
theorem routes_track {x : World × Routing} (hwf : x.1.Wf) (h : x.1.kit.Routes x.2) (e : Event) :
    (track x e).1.kit.Routes (track x e).2 := by
  rw [track, kit_step]
  rcases x.1.opOf e with _ | op
  · exact h
  · exact h.step hwf.kit op

/-- **When every accepted input comes back to its sender**: exactly when each finds its sender
routed to the scene of its session, that scene registered, and room in the sender's queue. -/
theorem echoed_iff (es : List Event) : Steps step Echoed {} es ↔
    Steps track (fun x e => x.1.InPlace x.2 e) ({}, fun _ => none) es := by
  have htracked : Steps track (fun x e => x.1.Echoed e) ({}, fun _ => none) es ↔
      Steps track (fun x e => x.1.InPlace x.2 e) ({}, fun _ => none) es :=
    steps_congr (I := fun x => x.1.Wf ∧ x.1.kit.Routes x.2)
      ⟨wf_start Server.wf_empty, Server.routes_empty⟩
      (fun x e h => ⟨wf_step x.1 e h.1, routes_track h.1 h.2 e⟩)
      (fun x e h => echoed_iff_inPlace h.1 h.2 e) es
  rw [← htracked]
  exact (@steps_map _ _ _ track Prod.fst step (fun _ _ => rfl) Echoed ({}, fun _ => none) es).symm

/-- An operator is on the live endpoint when it is switched from `a` to `b`, and sends an input. -/
def switchedRun : List Event :=
  [.trusted (.newScene "a" "v1" [] true), .trusted (.newScene "b" "v2" [] true),
    .connect ["lsdp.v1"], .session 0 (.sent true),
    .session 0 (.received (.frame (.subscribe { token := .str "t" }))),
    .session 0 (.authenticated (.identity { role := some .operator })), .session 0 (.sent true),
    .trusted (.setActive "b")]

/-- The input it sends. -/
def operatorInput : Input := { patches := [⟨"__inputs.x", .int 1, none⟩] }

end World

namespace World

/-- **An input that goes elsewhere**: after `switchedRun` scene `1` serves the operator, and its
input is accepted, and emitted, by scene `0`. -/
theorem switchedRun_not_echoed :
    (@after .plain switchedRun).kit.Owns 1 0 ∧
      Accepts (@after .plain switchedRun)
        (.session 0 (.received (.frame (.input operatorInput))))
        ⟨0, 0, { role := some .operator }⟩ operatorInput ∧
      ¬ Steps (@step .plain) (@Echoed .plain) {}
        (switchedRun ++ [.session 0 (.received (.frame (.input operatorInput)))]) := by
  have haccepts : Accepts (@after .plain switchedRun)
      (.session 0 (.received (.frame (.input operatorInput))))
      ⟨0, 0, { role := some .operator }⟩ operatorInput := ⟨0, {}, rfl, rfl, rfl, rfl⟩
  refine ⟨by decide, haccepts, fun h => ?_⟩
  obtain ⟨c, hreg, ho, hscene, -⟩ := h switchedRun _ [] rfl _ _ haccepts
  have hc : c = 0 ∨ c = 1 := by
    rcases List.mem_cons.mp hreg with rfl | hreg
    · exact Or.inl rfl
    · exact Or.inr (List.mem_singleton.mp hreg)
  rcases hc with rfl | rfl
  · revert ho
    decide
  · have hseq := congrArg Scene.currentSeq hscene
    revert hseq
    decide

end World

end Lumencast
