/-
  The loop over the plugins.

  The modeler answers with the first action that does not start with `DUNNO`.
  Plugins that come first may answer earlier, but as long as they return
  actions, or raise, they cannot keep a later plugin from being asked
  (`applyPlugins_of_reject`), and there is always an answer (`handleData_answers`).
-/
import IRedAPD.Libs.Modeler

namespace IRedAPD

open Py

variable {ω : Type*}

/-- A plugin whose result, when it does not raise, is a non-empty action. -/
def ReturnsAction (plugin : Plugin ω) : Prop :=
  ∀ kwargs w result w', plugin.restriction kwargs w = (.ok result, w') →
    ∃ action, result = some action ∧ action ≠ []

/-- An answer that ends the loop. -/
def Rejects (result : Except Exn Str) : Prop :=
  ∃ action, result = .ok action ∧ action ≠ [] ∧ startsWith action "DUNNO" = false

/-- What `apply_plugin` makes of such a plugin. -/
theorem exists_applyPlugin {plugin : Plugin ω} (hplugin : ReturnsAction plugin)
    (kwargs : PluginKwargs) (w : ω) :
    ∃ action w', applyPlugin plugin kwargs w = (some action, w') ∧ action ≠ [] := by
  unfold applyPlugin
  rcases hr : plugin.restriction kwargs w with ⟨_ | result, w'⟩
  · exact ⟨SmtpActions.defaultAction, w', rfl, by decide⟩
  · obtain ⟨action, rfl, hne⟩ := hplugin kwargs w result w' hr
    exact ⟨action, w', rfl, hne⟩

/-- **A plugin that rejects is not passed over.** `P` is what it needs of its keyword arguments, and
preparing a plugin does not change it. -/
theorem applyPlugins_of_reject {prepare : Plugin ω → PluginKwargs → ω → PluginKwargs × ω}
    {P : PluginKwargs → Prop}
    (hprepare : ∀ plugin kwargs w, P kwargs → P (prepare plugin kwargs w).1)
    {protocolState : Str} {plugin : Plugin ω}
    (hstate : protocolState ∈ plugin.smtpProtocolState.getD ["RCPT"])
    (hreject : ∀ kwargs w, P kwargs →
      ∃ action w', plugin.restriction kwargs w = (.ok (some action), w') ∧ action ≠ [] ∧
        startsWith action "DUNNO" = false)
    {before : List (Plugin ω)} (hbefore : ∀ p ∈ before, ReturnsAction p) (after : List (Plugin ω))
    {kwargs : PluginKwargs} (hP : P kwargs) (w : ω) :
    Rejects (applyPlugins prepare protocolState (before ++ plugin :: after) kwargs w).1 := by
  induction before generalizing kwargs w with
  | nil =>
    rw [List.nil_append, applyPlugins, if_neg (not_not.mpr hstate)]
    obtain ⟨action, w', hr, hne, hd⟩ :=
      hreject _ (prepare plugin kwargs w).2 (hprepare plugin kwargs w hP)
    simp only [applyPlugin, hr, hd, Bool.false_eq_true, if_false]
    exact ⟨action, rfl, hne, hd⟩
  | cons p before ih =>
    have hrest : ∀ q ∈ before, ReturnsAction q := fun q hq => hbefore q (by simp [hq])
    rw [List.cons_append, applyPlugins]
    by_cases hskip : protocolState ∉ p.smtpProtocolState.getD ["RCPT"]
    · rw [if_pos hskip]
      exact ih hrest hP w
    · rw [if_neg hskip]
      obtain ⟨action, w', hr, hne⟩ := exists_applyPlugin (hbefore p (by simp))
        (prepare p kwargs w).1 (prepare p kwargs w).2
      simp only [hr]
      cases hd : startsWith action "DUNNO" with
      | true => exact ih hrest (hprepare p kwargs w hP) w'
      | false => exact ⟨action, rfl, hne, hd⟩

/-- **A loop over plugins that return actions answers with an action.** -/
theorem applyPlugins_answers {prepare : Plugin ω → PluginKwargs → ω → PluginKwargs × ω}
    {protocolState : Str} {plugins : List (Plugin ω)} (hplugins : ∀ p ∈ plugins, ReturnsAction p)
    (kwargs : PluginKwargs) (w : ω) :
    ∃ action w', applyPlugins prepare protocolState plugins kwargs w = (.ok action, w') ∧
      action ≠ [] := by
  induction plugins generalizing kwargs w with
  | nil => exact ⟨SmtpActions.defaultAction, w, rfl, by decide⟩
  | cons p plugins ih =>
    have hrest : ∀ q ∈ plugins, ReturnsAction q := fun q hq => hplugins q (List.mem_cons_of_mem p hq)
    rw [applyPlugins]
    by_cases hskip : protocolState ∉ p.smtpProtocolState.getD ["RCPT"]
    · rw [if_pos hskip]
      exact ih hrest kwargs w
    · rw [if_neg hskip]
      obtain ⟨action, w', hr, hne⟩ := exists_applyPlugin (hplugins p List.mem_cons_self)
        (prepare p kwargs w).1 (prepare p kwargs w).2
      simp only [hr]
      cases startsWith action "DUNNO" with
      | true => exact ih hrest _ w'
      | false => exact ⟨action, w', rfl, hne⟩

/-- So does the modeler, when the session has what it reads without a default. -/
theorem handleData_answers [Unicode] {prepare : Plugin ω → PluginKwargs → ω → PluginKwargs × ω}
    {plugins : List (Plugin ω)} (hplugins : ∀ p ∈ plugins, ReturnsAction p) {s : Session}
    (hkeys : ∀ k ∈ ["protocol_state".toList, "sender_without_ext".toList,
      "recipient_without_ext".toList], s.get? k ≠ none) (w : ω) :
    ∃ action w', handleData prepare plugins s w = (.ok action, w') ∧ action ≠ [] := by
  obtain ⟨protocolState, hstate⟩ := Option.ne_none_iff_exists'.mp (hkeys _ List.mem_cons_self)
  obtain ⟨sender, hsender⟩ := Option.ne_none_iff_exists'.mp
    (hkeys _ (List.mem_cons_of_mem _ List.mem_cons_self))
  obtain ⟨recipient, hrecipient⟩ := Option.ne_none_iff_exists'.mp
    (hkeys _ (List.mem_cons_of_mem _ (List.mem_cons_of_mem _ List.mem_cons_self)))
  unfold handleData
  split_ifs
  · exact ⟨_, w, rfl, List.append_ne_nil_of_left_ne_nil (by decide) _⟩
  · rw [hstate, hsender, hrecipient]
    exact applyPlugins_answers hplugins _ w

end IRedAPD
