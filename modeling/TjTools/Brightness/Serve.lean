/-
# What one request does to the panel

`main`'s restore and every datagram come down to at most one command
(`serve_blCtx`), and a command to at most one attempt to set its target on the panel
(`perform_refines`).  `serve_refines` puts the two together: it is all that the
results about the hardware need to know of a request.
-/

import TjTools.Brightness.Main
import TjTools.Brightness.Wire

namespace TjTools
namespace Brightness

open SocketContext

/-- The command of a request, if it has one. -/
def Request.command : Request → Option Command
  | .restore => some .restoreState
  | .datagram d => decode d

/-- The value a request passes to `set`, if it gets that far. -/
def Request.target (c : BacklightContext) (r : Request) : Option UInt32 :=
  r.command.bind (Command.target c)

/-- The request throws inside the handler or `main`. -/
def Request.fails (c : BacklightContext) (r : Request) : Prop :=
  ∃ cmd ∈ r.command, threw (cmd.perform.run c) = true

namespace SocketContext

/-- `main`'s restore is `restoreState` on the backlight object. -/
theorem blCtx_handle_restore (s : SocketContext) :
    (final ((handle .restore).run s)).blCtx
      = final (BacklightContext.restoreState.run s.blCtx) := by
  unfold handle
  rcases h : BacklightContext.restoreState.run s.blCtx with ⟨a, c⟩ | ⟨e, c⟩
  · rw [onBacklight_ok h]
    rfl
  · rw [onBacklight_error h]
    rfl

/-- A request performs its command on the backlight object, and nothing else touches
that. -/
theorem serve_blCtx (s : SocketContext) (r : Request) (o : Outcomes) :
    (s.serve (r, o)).blCtx = r.command.elim (s.blCtx.withOutcomes o)
      fun cmd => final (cmd.perform.run (s.blCtx.withOutcomes o)) := by
  cases r with
  | restore => exact blCtx_handle_restore (s.withOutcomes o)
  | datagram d =>
    have h := (answered_effect d (s.withOutcomes o)).2
    unfold serve handle
    rw [receive_run]
    exact h

/-- **One request on the panel.**  It sets its target if it has one.  The stream stays
sound, and where the request throws the panel refused what it set. -/
theorem serve_refines {s : SocketContext} (h : s.blCtx.Sound) (r : Request) (o : Outcomes) :
    (s.serve (r, o)).blCtx.Sound ∧
      (s.serve (r, o)).blCtx.cfg = s.blCtx.cfg ∧
      (s.serve (r, o)).blCtx.panel = (r.target (s.blCtx.withOutcomes o)).elim
        (s.blCtx.withOutcomes o).panel (s.blCtx.withOutcomes o).panel.set ∧
      (r.fails (s.blCtx.withOutcomes o) → ∀ v ∈ r.target (s.blCtx.withOutcomes o),
        (s.blCtx.withOutcomes o).panel.refuses v = true) := by
  have hsound := h.withOutcomes o
  rw [serve_blCtx, Request.target, Request.fails]
  rcases r.command with _ | cmd
  · refine ⟨hsound, rfl, rfl, ?_⟩
    rintro ⟨cmd, hcmd, -⟩
    cases hcmd
  · obtain ⟨hsound', hcfg, hpanel, hthrew⟩ := perform_refines hsound cmd
    refine ⟨hsound', hcfg, hpanel, ?_⟩
    rintro ⟨cmd', hcmd', ht⟩
    obtain rfl := Option.some.inj hcmd'
    exact hthrew ht

end SocketContext

end Brightness
end TjTools
