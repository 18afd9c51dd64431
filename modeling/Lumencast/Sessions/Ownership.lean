import Lumencast.Server.Ownership
import Lumencast.Sessions.World

/-!
# Sessions/Ownership — ownership under every interleaving

The sessions call the kit the way `Server.Respects` asks for: a client that names no scene is
attached, live, to the active one.  So ownership holds in every world whose trusted code respects it
as well.
-/

namespace Lumencast

open Machinery

namespace World

/-- What trusted code respects; clients may do as they like. -/
def Respects (w : World) : Event → Prop
  | .trusted op => w.kit.Respects op
  | _ => True

instance (w : World) (e : Event) : Decidable (w.Respects e) := by
  unfold Respects
  split <;> infer_instance

/-- A client on the live endpoint is attached to the active scene. -/
theorem activeScene_of_live {k : Server} {f : Subscribe} {identity : Identity} {c : SceneRef}
    (h : k.resolveScene f identity = .ok (.ok c)) (hlive : f.live = true) :
    k.activeScene = some c := by
  have hscene : f.scene = .str "" := by
    unfold Subscribe.live at hlive
    split at hlive
    · rename_i s hs
      rw [hs, eq_of_beq hlive]
    · cases hlive
  rw [Server.resolveScene_live hscene, Except.ok.injEq] at h
  rcases hactive : k.activeScene with _ | c'
  · rw [hactive] at h
    cases h
  · rw [hactive, Option.elim_some, Except.ok.injEq] at h
    rw [h]

variable [PyRepr]

/-- **Every operation a session makes respects what trusted code is asked to.** -/
theorem respects_opOf {w : World} {e : Event} (h : w.Respects e) {op : Op}
    (hop : w.opOf e = some op) : w.kit.Respects op := by
  rcases e with op' | requested | ⟨i, e⟩
  · cases hop
    exact h
  · cases hop
  · rw [opOf] at hop
    rcases hstep : (w.sessions.get i).step? w.kit e with _ | ⟨call, s⟩
    · rw [hstep] at hop
      cases hop
    · rw [hstep, Option.bind_some, Option.map_eq_some_iff] at hop
      obtain ⟨call', rfl, rfl⟩ := hop
      cases Session.did hstep with
      | attach _ _ hscene => exact activeScene_of_live hscene
      | fail _ => trivial
      | input _ _ _ => trivial
      | dequeue _ _ => trivial
      | detach _ => trivial

/-- What carries ownership from one state of a world to the next. -/
structure Homed (w : World) : Prop where
  wf : w.kit.Wf
  named : w.kit.Named
  homed : w.kit.Homed

theorem Homed.step {w : World} {e : Event} (h : w.Homed) (he : w.Respects e) :
    (w.step e).Homed := by
  have hkit := kit_step w e
  rcases hop : w.opOf e with _ | op
  · rw [hop] at hkit
    exact ⟨hkit ▸ h.wf, hkit ▸ h.named, hkit ▸ h.homed⟩
  · rw [hop] at hkit
    have hrespects := respects_opOf he hop
    exact ⟨hkit ▸ Server.wf_step _ op h.wf, hkit ▸ h.named.step h.wf hrespects,
      hkit ▸ h.homed.step h.named h.wf hrespects⟩

/-- **Ownership holds in every state that is reached**, whatever the sessions do and in whatever
order things happen. -/
theorem ownership (es : List Event) (h : Steps step Respects {} es) : (after es).kit.Ownership := by
  have hstart : ({} : World).Homed := ⟨Server.wf_empty, Server.named_empty, fun c r hreg => by
    cases hreg⟩
  have hend := Steps.invariant hstart (fun _ _ hw he => Homed.step hw he) h
  exact Server.ownership_of hend.wf hend.named hend.homed

/-- Two scenes, a live client and a test client of the first; the first is replaced, the second made
active, and the replaced scene reset. -/
def replacedRun : List Event :=
  [.trusted (.newScene "a" "v1" [] true), .trusted (.newScene "b" "v2" [] true),
    .connect ["lsdp.v1.1"], .session 0 (.sent true),
    .session 0 (.received (.frame (.subscribe { token := .str "t" }))),
    .session 0 (.authenticated (.identity { role := some .viewer })),
    .trusted (.scene 0 (.subscribe false)), .trusted (.newScene "a" "v3" [] true),
    .trusted (.scene 2 (.subscribe true)), .trusted (.setActive "b"), .trusted .runTask]

end World

namespace World

theorem ownership_replacedRun : (@after .plain replacedRun).kit.Ownership ∧
    (@after .plain replacedRun).kit.Owns 1 2 := by
  refine ⟨@ownership .plain replacedRun ?_, by decide⟩
  simp only [replacedRun, steps_cons]
  refine ⟨?_, ?_, trivial, trivial, trivial, trivial, ?_, ?_, ?_, trivial, trivial, steps_nil⟩ <;>
    decide

end World

end Lumencast
