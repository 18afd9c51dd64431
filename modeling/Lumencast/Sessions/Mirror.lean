import Lumencast.Fanout.Convergence
import Lumencast.Protocol.Decode
import Lumencast.Protocol.Text
import Lumencast.Sessions.Speech

/-!
# Sessions/Mirror — a client's mirror of its scene

A client mirrors its scene by reading the texts its session writes, as the conformance runner does.
What its mirror lacks is what the session has still to send and what waits in the queue, so a client
that has caught up holds what its scene holds: the ledger of `Sessions/Delivery` carries the
convergence of `Fanout/Convergence` to the wire, and the grammar of `Sessions/Speech` says that the
replies in between do no harm.
-/

namespace Lumencast

open Machinery

section Texts

variable [PyRepr] [PyParse]

/-- Read one text and mirror it; `none` stands for an exception. -/
def absorbText (state : Dict PyStr Json) (raw : PyStr) : Option (Dict PyStr Json) :=
  match PyParse.loads raw with
  | .ok (.obj frame) => absorbServerFrame frame state
  | _ => none

/-- Read one text after another. -/
def absorbTexts (state : Dict PyStr Json) : List PyStr → Option (Dict PyStr Json)
  | [] => some state
  | raw :: raws => (absorbText state raw).bind (absorbTexts · raws)

/-- Texts that are read as the objects they were written from. -/
theorem absorbTexts_encode : ∀ (fs : List Frame) (state : Dict PyStr Json),
    (∀ f ∈ fs, PyParse.loads (encode f) = .ok (.obj (frameToDict f))) →
    absorbTexts state (fs.map encode) = some (fs.foldl shadowAfter state)
  | [], _, _ => rfl
  | f :: fs, state, h => by
      have htext : absorbText state (encode f) = some (shadowAfter state f) := by
        rw [absorbText, h f List.mem_cons_self]
        exact absorb_frameToDict f state
      rw [List.map_cons, absorbTexts, htext, Option.bind_some,
        absorbTexts_encode fs _ fun g hg => h g (List.mem_cons_of_mem f hg), List.foldl_cons]

end Texts

/-! ## Replies do no harm -/

theorem shadowAfter_reply {f : Frame} (h : Reply f) (state : Dict PyStr Json) :
    shadowAfter state f = state := by
  cases h <;> rfl

/-- What a mirror makes of all that is written is what it makes of the stream. -/
theorem foldl_written (xs : List Sent)
    (h : ∀ x ∈ xs, x.issuer.isSome = true ∨ Reply x.frame) (state : Dict PyStr Json) :
    (xs.map (·.frame)).foldl shadowAfter state
      = ((xs.filter (·.issuer.isSome)).map (·.frame)).foldl shadowAfter state := by
  induction xs generalizing state with
  | nil => rfl
  | cons x xs ih =>
    have hxs := ih fun y hy => h y (List.mem_cons_of_mem x hy)
    rcases hissuer : x.issuer.isSome with _ | _
    · have hreply := (h x List.mem_cons_self).resolve_left (by simp [hissuer])
      rw [List.map_cons, List.foldl_cons, shadowAfter_reply hreply, hxs,
        List.filter_cons_of_neg (by simp [hissuer])]
    · rw [List.map_cons, List.foldl_cons, hxs, List.filter_cons_of_pos (by simp [hissuer]),
        List.map_cons, List.foldl_cons]

namespace World

variable [PyRepr]

/-- All that a session with a client writes is of the stream, or a reply. -/
theorem issued_or_reply (es : List Event) {i : ℕ} {r : SubRef}
    (hr : ((after es).sessions.get i).phase.sub? = some r) :
    ∀ x ∈ ((after es).sessions.get i).written, x.issuer.isSome = true ∨ Reply x.frame := by
  obtain ⟨opened, later, rest, hwritten, -, -, hissued, hsaid, -⟩ :=
    ((allSpoken_after es).spoken i).attached r hr
  intro x hx
  rw [hwritten, List.mem_append] at hx
  rcases hx with hx | hx
  · exact Or.inl (hissued x hx)
  · rcases hsaid x hx with hreply | ⟨c, -⟩
    · exact Or.inr hreply
    · exact Or.inl rfl

/-- What was written to a client, and then what is on its way to it, makes the content of the scene
that serves it. -/
theorem foldl_caughtUp {es : List Event} {i : ℕ} (halone : Steps step (ReadsAlone i) {} es)
    {l : Locals} {f : Snapshot} {c : SceneRef}
    (hl : ((after es).sessions.get i).phase.locals? = some l)
    (hopen : ((after es).kit.subs.get l.sub).closed = false)
    (hopening : ((after es).kit.subs.get l.sub).opening = .snapshot f)
    (hstale : ((after es).kit.subs.get l.sub).stale = false)
    (howns : (after es).kit.Owns c l.sub) (state : Dict PyStr Json) :
    (((after es).sessions.get i).frames ++ (((after es).sessions.get i).phase.pending
        ++ ((after es).kit.subs.get l.sub).queued)).foldl shadowAfter state
      = ((after es).kit.objects.get c).store.state := by
  have hr := Phase.sub?_of_locals? hl
  have hline := streamed_append halone hr (by rw [hl]; rfl) hopen
  have hwritten := foldl_written _ (issued_or_reply es hr) state
  rw [List.foldl_append]
  change List.foldl shadowAfter
    ((((after es).sessions.get i).written.map (·.frame)).foldl shadowAfter state) _ = _
  rw [hwritten, ← List.foldl_append]
  change (((after es).sessions.get i).streamed ++ _).foldl shadowAfter state = _
  rw [hline, hopening]
  obtain ⟨ops, hops⟩ := kit_after es
  rw [hops] at hopening hstale howns ⊢
  have howed : feed.owed ((Server.after ops).subs.get l.sub).offers = false :=
    Feed.owed_eq_false_of_taken (Server.allMarked_after ops l.sub hstale)
  have hsync := Server.converged_after ops c l.sub f howns hopening howed
  rw [Opening.frames, List.singleton_append, List.foldl_cons, foldl_frames]
  exact hsync

variable [PyParse]

/-- **A client that has caught up holds its scene.**  Whatever the interleaving, a client that was
opened with a snapshot, over an open queue that nobody else reads and that has lost nothing, can
mirror every text written to it; and what its mirror lacks of the content of the scene that serves
it is what its session has still to send and what waits in its queue. -/
theorem mirrored (es : List Event) (i : ℕ) (halone : Steps step (ReadsAlone i) {} es)
    {l : Locals} {f : Snapshot} {c : SceneRef}
    (hl : ((after es).sessions.get i).phase.locals? = some l)
    (hopen : ((after es).kit.subs.get l.sub).closed = false)
    (hopening : ((after es).kit.subs.get l.sub).opening = .snapshot f)
    (hstale : ((after es).kit.subs.get l.sub).stale = false)
    (howns : (after es).kit.Owns c l.sub)
    (hloads : ∀ f ∈ ((after es).sessions.get i).frames,
      PyParse.loads (encode f) = .ok (.obj (frameToDict f))) (state : Dict PyStr Json) :
    ∃ mirror, absorbTexts state (((after es).sessions.get i).frames.map encode) = some mirror ∧
      absorbStream mirror (((after es).sessions.get i).phase.pending
          ++ ((after es).kit.subs.get l.sub).queued)
        = some ((after es).kit.objects.get c).store.state := by
  refine ⟨_, absorbTexts_encode _ state hloads, ?_⟩
  rw [absorbStream_eq, ← List.foldl_append]
  exact congrArg some (foldl_caughtUp halone hl hopen hopening hstale howns state)

end World

/-- A viewer is attached, its scene emits, and the delta waits while a ping is answered. -/
def pingedRun : List Event :=
  [.trusted (.newScene "a" "v1" [] true), .connect ["lsdp.v1"], .session 0 (.sent true),
    .session 0 (.received (.frame (.subscribe { token := .str "t" }))),
    .session 0 (.authenticated (.identity { role := some .viewer })), .session 0 (.sent true),
    .trusted (.scene 0 (.emit (.ofList [("x", .int 1)]) none)),
    .session 0 (.received (.frame (.ping .null)))]

/-- The snapshot it was opened with. -/
def pingedSnapshot : Snapshot := { sceneId := .str "a", sceneVersion := .str "v1", seq := 1 }

namespace World

theorem mirrored_pingedRun :
    letI := PyRepr.plain
    letI := PyParse.both (encode (.snapshot pingedSnapshot))
      (.obj (frameToDict (.snapshot pingedSnapshot))) (encode (.pong .null))
      (.obj (frameToDict (.pong .null)))
    ∃ mirror, absorbTexts .empty
          (([.snapshot pingedSnapshot, .pong .null] : List Frame).map encode) = some mirror ∧
        absorbStream mirror ((after pingedRun).kit.subs.get 0).queued
          = some ((after pingedRun).kit.objects.get 0).store.state ∧
        ((after pingedRun).kit.objects.get 0).store.state.get? "x" = some (.int 1) := by
  let := PyRepr.plain
  let := PyParse.both (encode (.snapshot pingedSnapshot))
    (.obj (frameToDict (.snapshot pingedSnapshot))) (encode (.pong .null))
    (.obj (frameToDict (.pong .null)))
  have halone : Steps step (ReadsAlone 0) {} pingedRun := by
    simp only [pingedRun, steps_cons]
    refine ⟨?_, ?_, ?_, ?_, ?_, ?_, ?_, ?_, steps_nil⟩ <;> decide
  have hloads : ∀ f ∈ ([.snapshot pingedSnapshot, .pong .null] : List Frame),
      PyParse.loads (encode f) = .ok (.obj (frameToDict f)) := by
    intro f hf
    rcases List.mem_pair.mp hf with rfl | rfl
    · exact if_pos rfl
    · exact (if_neg (by decide)).trans (if_pos rfl)
  obtain ⟨mirror, htexts, hmirror⟩ := @mirrored .plain _ pingedRun 0 halone
    ⟨0, 0, { role := some .viewer }⟩ pingedSnapshot 0 rfl rfl rfl rfl (by decide) hloads .empty
  exact ⟨mirror, htexts, hmirror, rfl⟩

end World

end Lumencast
