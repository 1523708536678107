import LayoutEngine.Proofs.HostCode
import LayoutEngine.Proofs.Request

/-!
# Managers stay

A widget that has a manager keeps it, whatever a host asks for and whatever the code of its parsers
and of its answers for unknown types does meanwhile. The manager keeps all that it was made from;
only updates give it other data. Parsers are asked to set a widget up once, and for its manager once
(`Context.manager_stays`).

Of the parsers that a context describes more can be said: observers are told of each manager once,
when it is made, and no widget has two (`Context.manager_stays_of_served`).
-/

namespace LayoutEngine

open Session

namespace Session.Tracked

variable {context : Context} {supply : Supply} {s : Session}

/-- Each manager is that of another widget. -/
theorem nodup_widgets (h : s.Tracked context supply) : (s.managers.map (·.widget)).Nodup := by
  rw [List.nodup_iff_getElem?_ne_getElem?]
  intro i j hij hj heq
  rw [List.length_map] at hj
  have hi := hij.trans hj
  rw [List.getElem?_map, List.getElem?_map, List.getElem?_eq_getElem hi,
    List.getElem?_eq_getElem hj] at heq
  have hwidget : s.managers[i].widget = s.managers[j].widget := Option.some.inj heq
  obtain ⟨w, hw, hmid, -⟩ := h.managed (show s.manager? ⟨i⟩ = _ from List.getElem?_eq_getElem hi)
  obtain ⟨w', hw', hmid', -⟩ :=
    h.managed (show s.manager? ⟨j⟩ = _ from List.getElem?_eq_getElem hj)
  rw [hwidget, hw'] at hw
  cases hw
  rw [hmid'] at hmid
  cases hmid
  exact absurd hij (Nat.lt_irrefl _)

/-- The kept widgets are there. -/
theorem keepsWidgets (h : s.Tracked context supply) : s.KeepsWidgets := by
  intro place id hid
  obtain ⟨m, hm, -⟩ := h.exists_of_kept hid
  obtain ⟨w, mid, hw, -⟩ := managerOf?_eq_some_iff.1 hm
  rw [hw]
  rfl

end Session.Tracked

namespace Context

/-- Where parsers and the host are such as a context describes, a widget that has a manager keeps it
through further requests. The manager is made from the same layout and parser, for the same parent
and place in a repeated collection; its data are the same as well if no request is an update.
Observers have been told of every manager once, in order, and no two managers are of one widget. A
layout whose type has a parser, wherever it is inflated, gets a widget that has a manager before its
attributes are applied. -/
theorem manager_stays_of_served {context : Context} {s : Session} (hserved : context.Served .all s)
    (requests : List Request) :
    (∀ id w mid, s.widget? id = some w → w.manager = some mid → ∃ m w' data,
      s.manager? mid = some m ∧ m.widget = id ∧
      (context.serveAll requests s).widget? id = some w' ∧ w'.manager = some mid ∧
      (context.serveAll requests s).manager? mid = some { m with data := data } ∧
      ((∀ r ∈ requests, ¬r.IsUpdate) → data = m.data)) ∧
    s.calls.filter HostCall.isAttachment = s.managers.flatMap Manager.attachment ∧
    (s.managers.map (·.widget)).Nodup ∧
    s.KeepsWidgets ∧
    ∀ (s₀ : Session) (unknown : UnknownType) (l : Layout) (parser : ViewParser) (data : Fields)
      (parent : Option WidgetId) (index : Int), s₀.KeepsWidgets →
      context.registry.get? l.viewType = some parser → ∃ id s₁,
        l.inflate context unknown data parent index s₀ =
          (do
            Layout.applyAttributes context unknown parser l.viewType id l.attributes
            return id : Engine WidgetId) s₁ ∧
        ((s₁.widget? id).bind (·.manager)).isSome = true := by
  have ht := hserved.tracked
  have hall : ∀ r ∈ requests, r.Within context .all := fun r _ => r.within_all context
  have hgrows := (serveAll_steps ht hall).grows
  refine ⟨?_, ht.told, ht.nodup_widgets, ht.keepsWidgets, ?_⟩
  · intro id w mid hw hmid
    obtain ⟨m, hm, hid⟩ := ht.owned hw hmid
    obtain ⟨w', hw', hmid'⟩ := hgrows.manager hw
    obtain ⟨data, hm', hdata⟩ := hgrows.manager? hm
    refine ⟨m, w', data, hm, hid, hw', hmid'.trans hmid, hm', fun hno => hdata ?_⟩
    rintro ⟨r, hr, hupdate⟩
    exact hno r hr hupdate
  · intro s₀ unknown l parser data parent index hkept hget
    exact Layout.inflate_manages unknown hkept data parent index hget

end Context

end LayoutEngine
