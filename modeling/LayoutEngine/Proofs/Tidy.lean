import LayoutEngine.Proofs.Serving
import LayoutEngine.Proofs.Single

/-!
# Tidy sessions

Where the parsers are the engine's own, a host has one way left into a session that is being
inflated: it is asked for a widget for every layout of an unknown type. `UnknownType.Fresh` says of
what it does then that the widget is a new one each time. On the way it may make whatever it likes,
containers without managers among them, and inflate layouts. All that is asked for leaves a session
tidy, then (`Context.tidy`): managers are those of their own widgets, and the widgets hang together
as trees. The fallback of a context is an instance, if there is none or none of its answers is a
widget that is there (`Context.fresh_unknown`).
-/

namespace LayoutEngine

open Session Engine

namespace Session

variable {s : Session} {id top : WidgetId}

/-- Managers are those of their own widgets, and no widget has two holders or is below itself. -/
structure Tidy (s : Session) : Prop where
  manned : s.Manned
  single : s.Single
  acyclic : s.Acyclic

/-- All below a widget that lives live. -/
theorem Tidy.living_of_below (hs : s.Tidy) {held : List WidgetId} (hlives : top ∈ s.living held)
    (h : s.Below id top) : id ∈ s.living held := by
  induction h with
  | refl => exact hlives
  | tail _ hchild ih => exact mem_living_of_child ih hchild (hs.single.present hchild)

end Session

/-- What is done about a type without parser is to give out a new widget each time, which is
nobody's child yet. Whatever else is done on the way, only new widgets become children, each of one
widget and none of one below it; names are only added; and managers stay those of their own widgets.
-/
structure UnknownType.Fresh (registry : Registry) (unknown : UnknownType) : Prop where
  spares : unknown.Spares registry
  staysManned : unknown.Carries registry (fun s => registry.Provides s.ids) StaysManned

namespace Context

variable {context : Context} {unknown : UnknownType}

/-- The fallback of a context gives out new widgets, unless it answers with one that is there. -/
theorem fresh_unknown (hnew : context.registry.MakesNew) (hcovers : Supply.all.Covers context)
    (budget : Nat) : (context.unknown budget).Fresh context.registry :=
  ⟨unknown_spares hnew hcovers budget, carries_unknown context.carries_staysManned.toCarries budget⟩

/-- Where the parsers are the engine's own, perhaps under further names, and a host gives out new
widgets, a session is tidy after whatever requests. -/
theorem tidy {aliases : List (String × String)} {t ids : IdTable}
    (hregistry : context.registry = Setup.registerAliases aliases (Registry.withBuiltins t).1)
    (hids : (Registry.withBuiltins t).2 ≤ ids) (hfresh : unknown.Fresh context.registry)
    (requests : List Request) :
    (context.serveAllBy (.own unknown) requests (.ofIds ids)).Tidy := by
  have hnew : context.registry.MakesNew := by
    rw [hregistry]
    exact Registry.makesNew_registerAliases aliases t
  have hprovides : context.registry.Provides ids := by
    rw [hregistry]
    exact (Registry.provides_registerAliases aliases t).mono hids
  have hmanned := context.carries_staysManned.serveAllBy hfresh.staysManned requests
    (s := .ofIds ids) hprovides
  have hexpands := serveAllBy_expands hnew hfresh.spares requests (.ofIds ids)
  exact ⟨hmanned.2 (manned_ofIds ids), hexpands.single (single_ofIds ids),
    hexpands.acyclic (acyclic_ofIds ids)⟩

/-- So it is where the fallback of the context is asked and answers with no widget that is there. -/
theorem tidy_serveAll {aliases : List (String × String)} {t ids : IdTable}
    (hregistry : context.registry = Setup.registerAliases aliases (Registry.withBuiltins t).1)
    (hids : (Registry.withBuiltins t).2 ≤ ids)
    (hfresh : ∀ answer, context.fallback = some answer → ∀ viewType id,
      answer viewType ≠ .widget id) (requests : List Request) :
    (context.serveAll requests (.ofIds ids)).Tidy := by
  have hnew : context.registry.MakesNew := by
    rw [hregistry]
    exact Registry.makesNew_registerAliases aliases t
  have hcovers : Supply.all.Covers context :=
    ⟨fun _ _ hanswer id => hfresh _ hanswer _ id, fun _ _ => trivial⟩
  exact tidy hregistry hids (fresh_unknown hnew hcovers context.layouts.size) requests

end Context

end LayoutEngine
