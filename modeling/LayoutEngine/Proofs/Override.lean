import LayoutEngine.Proofs.Edit
import LayoutEngine.Proofs.Settling

/-!
# Attributes declared more than once

A layout may declare an attribute several times. On inflation the last declaration that is accepted
counts. An update applies only the bound declarations again, so one of them that is accepted in the
new data counts afterwards, though a later declaration has been a literal
(`Context.update_after_inflate`).
-/

namespace LayoutEngine

namespace Look

variable {k : Kind} {data : Fields} {index : Int}

/-- The last attribute of a property's name counts if it is accepted. -/
theorem lastSetTo?_of_getLast? {attributes : List (String × Value)} {p : Property}
    {named : String × Value} {x : Setting}
    (hlast : (attributes.filter (·.1 = p.name)).getLast? = some named)
    (hset : k.setTo? data index p named = some x) :
    k.lastSetTo? data index p attributes = some x := by
  induction attributes using List.reverseRecOn with
  | nil => cases hlast
  | append_singleton rest last ih =>
    rw [Kind.lastSetTo?, List.reverse_concat, List.findSome?_cons]
    by_cases hname : last.1 = p.name
    · rw [List.filter_append, List.filter_cons_of_pos (by simpa using hname), List.filter_nil,
        List.getLast?_concat] at hlast
      obtain rfl := Option.some.inj hlast
      rw [hset]
    · rw [List.filter_append, List.filter_cons_of_neg (by simpa using hname), List.filter_nil,
        List.append_nil] at hlast
      rw [Kind.setTo?_of_name_ne (Ne.symm hname)]
      exact ih hlast

end Look

namespace Context

open Session

variable {context : Context} {s₀ s₁ : Session}

/-- The widgets that an inflation has made are settled. -/
theorem settled_of_new (hinvariant : context.Invariant s₀) {l : Layout} {data : Fields}
    {parent : Option WidgetId} {index : Int} {root : WidgetId}
    (hinflate : context.inflate l data parent index s₀ = (.ok root, s₁)) {id : WidgetId}
    (hnew : s₀.widget? id = none) {m : Manager} (hm : s₁.managerOf? id = some m)
    {source : LayoutSource} (hcompiled : source.compile s₀.ids = (.ok m.layout, s₀.ids)) :
    ∃ mid k w, s₁.Managed id mid m k w
      ((Look.initial m.parent).settle k m.data m.index source.declared) := by
  have hevolves := (context.inflate_inflated hinvariant.own.offers hinvariant.sound l data parent
    index).evolves
  rw [hinflate] at hevolves
  obtain ⟨mid, k, w, look, h⟩ := hevolves.sound.exists_managed_of_managerOf? hm
  have hnone : s₀.manager? mid = none := by
    cases hold : s₀.manager? mid with
    | none => rfl
    | some m' =>
      obtain rfl := Option.some.inj
        ((hevolves.frame.manager? mid m' not_false hold).symm.trans h.managed)
      obtain ⟨k', w', look', hmanaged⟩ := hinvariant.sound.managed hold
      have hwidget := hmanaged.widget
      rw [hevolves.sound.widget_eq h, hnew] at hwidget
      cases hwidget
  obtain ⟨k', w', hsettled⟩ := context.inflate_settles hinvariant.sound hinvariant.own.offers
    hinflate hnone h.managed source hcompiled
  rw [hevolves.sound.widget_eq h] at hsettled
  exact ⟨mid, k', w', hsettled⟩

/-- A layout is inflated, and then the root's manager is updated. Of a widget that the inflation has
made for a compiled layout, below the root or the root itself, an attribute has a literal as its
last declaration, which is accepted. Right after the inflation the property is as the literal says.
After the update it is as the last accepted one of the bound attributes says in the new data, and as
right after the inflation if there is none, or if the root has been let go. So it is still as the
literal says if no bound attribute has the name. The children are the same. Without a host the
update comes to an end. -/
theorem update_after_inflate (hmade : context.Made s₀) {l : Layout} {data₁ : Fields}
    {parent : Option WidgetId} {index : Int} {root : WidgetId}
    (hinflate : context.inflate l data₁ parent index s₀ = (.ok root, s₁)) {id : WidgetId}
    (hnew : s₀.widget? id = none) (hbelow : s₁.Below id root) {m : Manager}
    (hm : s₁.managerOf? id = some m) {k : Kind} (hk : Kind.ofType? m.parser.typeName = some k)
    {source : LayoutSource} (hcompiled : source.compile s₀.ids = (.ok m.layout, s₀.ids))
    {name : String} {value : Value}
    (hlast : (source.declared.filter (·.1 = name)).getLast? = some (name, value))
    (hliteral : value.isBinding = false)
    (haccepts : k.accepts m.data m.index (name, value) = true) {mid : ManagerId}
    (hmid : (s₁.widget? root).bind (·.manager) = some mid) (held : List WidgetId)
    (data₂ : Fields) :
    (context.fallback = none → ∃ n s₂,
      context.update (s₁.living held).contains mid data₂ s₁ = (.ok n, s₂)) ∧
    ∀ n s₂, context.update (s₁.living held).contains mid data₂ s₁ = (.ok n, s₂) →
      ∃ w₁ w₂, s₁.widget? id = some w₁ ∧ s₂.widget? id = some w₂ ∧ w₂.children = w₁.children ∧
        ∀ p, k.route name = .property p →
          p.setting? s₁.ids w₁ = p.settingOf? value ∧
          (p.setting? s₁.ids w₁).isSome = true ∧
          p.setting? s₂.ids w₂ =
            (if root ∈ s₁.living held then
              k.lastSetTo? data₂ m.index p (Look.bound source.declared)
            else none).or (p.setting? s₁.ids w₁) ∧
          ((∀ named ∈ Look.bound source.declared, named.1 ≠ name) →
            p.setting? s₂.ids w₂ = p.settingOf? value) := by
  have hinvariant := hmade.invariant
  have hinvariant₁ : context.Invariant s₁ := by
    have hact := hinvariant.perform (.inflate l data₁ parent index)
    rwa [perform_inflate, hinflate] at hact
  obtain ⟨mid₁, k', w₁, h⟩ := settled_of_new hinvariant hinflate hnew hm hcompiled
  obtain rfl : k = k' := Option.some.inj
    (hk.symm.trans (Kind.ofType?_eq_some_iff.2 h.serves.typeName.symm))
  refine ⟨?_, ?_⟩
  · intro hno
    obtain ⟨n, hn⟩ := context.update_returns hinvariant₁.sound (hinvariant₁.orderly hno) mid
    exact ⟨n, _, Prod.ext hn rfl⟩
  intro n s₂ hupdate
  have hids : s₀.ids ≤ s₁.ids := by
    have hevolves := (context.inflate_inflated hinvariant.own.offers hinvariant.sound l data₁ parent
      index).evolves
    rw [hinflate] at hevolves
    exact hevolves.frame.ids
  obtain ⟨w₂, hw₂, hchildren, hsetting⟩ := context.setting_of_update hinvariant₁.sound h
    (LayoutSource.compile_of_le hcompiled hids) hbelow hmid hupdate
  refine ⟨w₁, w₂, h.widget, hw₂, hchildren, ?_⟩
  intro p hp
  obtain ⟨rfl, hhas⟩ := Kind.route_eq_property hp
  -- A literal is the same in any data, so what the inflation has set is what it says.
  have hresolve : value.resolve m.data m.index = value := by
    cases value <;> first | rfl | cases hliteral
  have haccepted := Look.settingOf?_of_accepts (Look.initial m.parent) hp haccepts
  have hset : k.setTo? m.data m.index p (p.name, value) = some _ :=
    Kind.setTo?_eq_some_iff.2 (Kind.effect?_eq_some_iff.2 ⟨hp, haccepted⟩)
  have hfirst : p.setting? s₁.ids w₁ = p.settingOf? value := by
    rw [h.shows.settings p hhas, Look.settings_settle, Look.lastSetTo?_of_getLast? hlast hset,
      Option.getD_some, ← haccepted, hresolve]
  refine ⟨hfirst, ?_, hsetting p hhas, ?_⟩
  · rw [hfirst, ← hresolve, haccepted]
    rfl
  · intro hfree
    have hnone : k.lastSetTo? data₂ m.index p (Look.bound source.declared) = none :=
      Look.lastSetTo?_of_forall_ne fun named hnamed => (hfree named hnamed).symm
    rw [hsetting p hhas, hnone, ite_self, Option.none_or, hfirst]

/-- A title that is bound and then declared again as a literal. -/
def retitledText : LayoutSource :=
  ⟨"text", [⟨"text", .string "@{title}"⟩, ⟨"text", .string "Final"⟩], []⟩

/-- The text of this layout is declared last as the final one. -/
theorem getLast?_retitledText :
    (retitledText.declared.filter (·.1 = "text")).getLast? = some ("text", .string "Final") := by
  have hname : Text.trimmed "text" = "text" := by decide +kernel
  have hliteral : Binding.parse? "Final" = none := by decide +kernel
  have hvalue : Value.ofJson (.string "Final") = .string "Final" := by
    rw [Value.ofJson, hliteral]
  simp [retitledText, LayoutSource.declared, hname, hvalue]

/-- A container with such a title is inflated and updated. -/
theorem exists_updated_retitledText :
    ∃ l t' s₁ s₂ w₁ w₂,
      LayoutSource.compile ⟨"relative-layout", [], [retitledText]⟩ ownIds = (.ok l, t') ∧
      own.inflate l formData none 3 (.ofIds t') = (.ok ⟨1⟩, s₁) ∧
      own.update (s₁.living [⟨1⟩]).contains ⟨0⟩ laterData s₁ = (.ok 1, s₂) ∧
      (⟨1⟩ ∈ s₁.living [⟨1⟩] ∧ (s₁.widget? ⟨1⟩).bind (·.manager) = some ⟨0⟩ ∧
        ⟨2⟩ ∈ s₁.childrenOf ⟨1⟩) ∧
      s₁.widget? ⟨2⟩ = some w₁ ∧ s₂.widget? ⟨2⟩ = some w₂ ∧
      (Property.text .text).setting? s₁.ids w₁ = some (.string "Final") ∧
      (Property.text .text).setting? s₂.ids w₂ = some (.string "Bye") := by
  have hrun : Fallible.gives (LayoutSource.compile ⟨"relative-layout", [], [retitledText]⟩) ownIds
      (fun l t' => Fallible.gives (own.inflate l formData none 3) (.ofIds t') fun root s₁ =>
        Fallible.gives (own.update (s₁.living [⟨1⟩]).contains ⟨0⟩ laterData) s₁ fun n s₂ =>
          (s₁.widget? ⟨2⟩).any fun w₁ => (s₂.widget? ⟨2⟩).any fun w₂ =>
            decide (root = ⟨1⟩ ∧ n = 1 ∧
              (⟨1⟩ ∈ s₁.living [⟨1⟩] ∧ (s₁.widget? ⟨1⟩).bind (·.manager) = some ⟨0⟩ ∧
                ⟨2⟩ ∈ s₁.childrenOf ⟨1⟩) ∧
              (Property.text .text).setting? s₁.ids w₁ = some (.string "Final") ∧
              (Property.text .text).setting? s₂.ids w₂ = some (.string "Bye"))) = true := by
    decide +kernel
  obtain ⟨l, t', hcompile, hrun⟩ := Fallible.exists_of_gives hrun
  obtain ⟨root, s₁, hinflate, hrun⟩ := Fallible.exists_of_gives hrun
  obtain ⟨n, s₂, hupdate, hrun⟩ := Fallible.exists_of_gives hrun
  obtain ⟨w₁, hw₁, hrun⟩ := (Option.any_eq_true _ _).1 hrun
  obtain ⟨w₂, hw₂, hrun⟩ := (Option.any_eq_true _ _).1 hrun
  obtain ⟨rfl, rfl, hplace, hfirst, hlater⟩ := of_decide_eq_true hrun
  exact ⟨l, t', s₁, s₂, w₁, w₂, hcompile, hinflate, hupdate, hplace, hw₁, hw₂, hfirst, hlater⟩

/-- The title is first as the literal says, and after the update as the binding says. -/
theorem update_after_inflate_retitledText :
    ∃ l t' s₁ s₂ w₁ w₂,
      LayoutSource.compile ⟨"relative-layout", [], [retitledText]⟩ ownIds = (.ok l, t') ∧
      own.inflate l formData none 3 (.ofIds t') = (.ok ⟨1⟩, s₁) ∧
      own.update (s₁.living [⟨1⟩]).contains ⟨0⟩ laterData s₁ = (.ok 1, s₂) ∧
      s₁.widget? ⟨2⟩ = some w₁ ∧ s₂.widget? ⟨2⟩ = some w₂ ∧
      (Property.text .text).setting? s₁.ids w₁ =
        (Property.text .text).settingOf? (.string "Final") ∧
      (Property.text .text).setting? s₂.ids w₂ =
        (Kind.text.lastSetTo? laterData 3 (.text .text) (Look.bound retitledText.declared)).or
          ((Property.text .text).setting? s₁.ids w₁) := by
  obtain ⟨l, t', s₁, s₂, w₁, w₂, hcompile, hinflate, hupdate, ⟨hlives, hmid, hchild⟩, hw₁, hw₂,
    -⟩ := exists_updated_retitledText
  have hle : ownIds ≤ t' := (LayoutSource.stable_compile _ hcompile).1
  have hcontext : own.HasOwnParsers (Session.ofIds t').ids := own_hasOwnParsers hle
  have hcompiled := LayoutSource.compile_of_le hcompile (le_refl t')
  obtain ⟨-, -, hbuilt⟩ := built_of_inflate hcontext hcompiled hinflate
  obtain ⟨k, mid, child, parser, w, hstands⟩ := hbuilt.stands ⟨retitledText, some ⟨1⟩, ⟨2⟩⟩
    (List.mem_cons_of_mem _ List.mem_cons_self)
  obtain rfl : Kind.text = k := Option.some.inj hstands.type
  obtain ⟨below, hdescribes⟩ := LayoutSource.describes_of_compile hcompiled
  have hchildcompiled : retitledText.compile t' = (.ok child, t') := by
    cases hdescribes.children with
    | @cons _ child' _ _ hchild' _ =>
    have hlater := LayoutSource.compile_of_le hchild' hbuilt.frame.ids
    rw [hstands.compiled] at hlater
    cases hlater
    exact hchild'
  have haccepts : Kind.text.accepts formData 3 ("text", .string "Final") = true := by
    decide +kernel
  obtain ⟨-, hafter⟩ := update_after_inflate (.start hcontext.registry) hinflate
    (Session.widget?_ofIds t' ⟨2⟩) (Relation.ReflTransGen.single hchild)
    hstands.managed.managerOf?
    (Kind.ofType?_eq_some_iff.2 hstands.managed.serves.typeName.symm) hchildcompiled
    getLast?_retitledText rfl haccepts hmid [⟨1⟩] laterData
  obtain ⟨v₁, v₂, hv₁, hv₂, -, hsetting⟩ := hafter _ _ hupdate
  obtain rfl : w₁ = v₁ := Option.some.inj (hw₁.symm.trans hv₁)
  obtain rfl : w₂ = v₂ := Option.some.inj (hw₂.symm.trans hv₂)
  obtain ⟨hfirst, -, hlater, -⟩ := hsetting (.text .text) (by decide +kernel)
  rw [if_pos hlives] at hlater
  exact ⟨l, t', s₁, s₂, w₁, w₂, hcompile, hinflate, hupdate, hw₁, hw₂, hfirst, hlater⟩

/-- The literal is the last declaration, and is not what the title is after the update. -/
theorem literal_overridden_retitledText :
    ∃ l t' s₁ s₂ w₁ w₂,
      LayoutSource.compile ⟨"relative-layout", [], [retitledText]⟩ ownIds = (.ok l, t') ∧
      (retitledText.declared.filter (·.1 = "text")).getLast? = some ("text", .string "Final") ∧
      Kind.text.accepts formData 3 ("text", .string "Final") = true ∧
      own.inflate l formData none 3 (.ofIds t') = (.ok ⟨1⟩, s₁) ∧
      own.update (s₁.living [⟨1⟩]).contains ⟨0⟩ laterData s₁ = (.ok 1, s₂) ∧
      s₁.widget? ⟨2⟩ = some w₁ ∧ s₂.widget? ⟨2⟩ = some w₂ ∧
      (Property.text .text).setting? s₁.ids w₁ = some (.string "Final") ∧
      (Property.text .text).setting? s₂.ids w₂ = some (.string "Bye") := by
  obtain ⟨l, t', s₁, s₂, w₁, w₂, hcompile, hinflate, hupdate, -, hw₁, hw₂, hfirst, hlater⟩ :=
    exists_updated_retitledText
  exact ⟨l, t', s₁, s₂, w₁, w₂, hcompile, getLast?_retitledText, by decide +kernel, hinflate,
    hupdate, hw₁, hw₂, hfirst, hlater⟩

end Context

end LayoutEngine
