/-
  The order of the plugins.

  Plugins are applied in the order of their priorities.  The order in which the
  setting names them counts for plugins with the same priority only, and not for
  those either when they keep to themselves and never both answer
  (`reply_of_perm`).  Of the plugins that come with the program, as long as the
  setting names those of one backend, the two with the same priority are of this
  kind (`plugin_order_irrelevant`), and one of them rejects an authenticated null
  sender whatever the others are (`null_sender_rejected`).
-/
import IRedAPD.Libs.LoadPlugins
import IRedAPD.Plugins.RejectNullSender

namespace IRedAPD

open Py

variable {ω : Type*}

/-! ### Plugins that keep to themselves -/

/-- A plugin that reads its arguments only, and has nothing looked up. -/
structure Standalone (plugin : PluginModule ω) (answer : PluginKwargs → Except Exn Str) : Prop where
  restriction_eq : ∀ kwargs w, plugin.restriction kwargs w = ((answer kwargs).map some, w)
  requireLocalSender_eq : plugin.requireLocalSender = false
  requireLocalRecipient_eq : plugin.requireLocalRecipient = false
  senderSearchAttrlist_eq : plugin.senderSearchAttrlist = none
  recipientSearchAttrlist_eq : plugin.recipientSearchAttrlist = none

/-- The action that ends the loop over the plugins, if it is one. -/
def verdict (result : Except Exn Str) : Option Str :=
  match result with
  | .ok action => if startsWith action "DUNNO" then none else some action
  | .error _ => none

/-- Two such plugins, at most one of which ends the loop. -/
def Exchangeable (p q : PluginModule ω) : Prop :=
  ∃ answer answer', Standalone p answer ∧ Standalone q answer' ∧
    ∀ kwargs, verdict (answer kwargs) = none ∨ verdict (answer' kwargs) = none

/-- The step of the loop for such a plugin. -/
theorem applyPlugins_cons {prepare : Plugin ω → PluginKwargs → ω → PluginKwargs × ω}
    {p : PluginModule ω} {answer : PluginKwargs → Except Exn Str} (hp : Standalone p answer)
    (hprepare : ∀ kwargs w, prepare p.toPlugin kwargs w = (kwargs, w)) (protocolState : Str)
    (plugins : List (Plugin ω)) (kwargs : PluginKwargs) (w : ω) :
    applyPlugins prepare protocolState (p.toPlugin :: plugins) kwargs w =
      match if protocolState ∈ p.smtpProtocolState.getD ["RCPT"] then verdict (answer kwargs)
        else none with
      | some action => (.ok action, w)
      | none => applyPlugins prepare protocolState plugins kwargs w := by
  rw [applyPlugins]
  by_cases hstate : protocolState ∈ p.smtpProtocolState.getD ["RCPT"]
  · rw [if_neg (not_not.mpr hstate), if_pos hstate]
    simp only [hprepare, applyPlugin, hp.restriction_eq]
    unfold verdict
    cases answer kwargs with
    | error e => rfl
    | ok action =>
      simp only [Except.map]
      split_ifs
      · rfl
      · rfl
  · rw [if_pos hstate, if_neg hstate]

/-- The step for a plugin of any kind leaves what comes after it as it is. -/
theorem applyPlugins_append_congr {prepare : Plugin ω → PluginKwargs → ω → PluginKwargs × ω}
    {protocolState : Str} {plugins plugins' : List (Plugin ω)}
    (h : ∀ kwargs w, applyPlugins prepare protocolState plugins kwargs w =
      applyPlugins prepare protocolState plugins' kwargs w)
    (before : List (Plugin ω)) (kwargs : PluginKwargs) (w : ω) :
    applyPlugins prepare protocolState (before ++ plugins) kwargs w =
      applyPlugins prepare protocolState (before ++ plugins') kwargs w := by
  induction before generalizing kwargs w with
  | nil => exact h kwargs w
  | cons p before ih =>
    simp only [List.cons_append, applyPlugins, ih]

/-- **Exchangeable plugins** may be exchanged. -/
theorem applyPlugins_swap {prepare : Plugin ω → PluginKwargs → ω → PluginKwargs × ω}
    {p q : PluginModule ω} (hpq : Exchangeable p q)
    (hp : ∀ kwargs w, prepare p.toPlugin kwargs w = (kwargs, w))
    (hq : ∀ kwargs w, prepare q.toPlugin kwargs w = (kwargs, w)) (protocolState : Str)
    (before after : List (Plugin ω)) (kwargs : PluginKwargs) (w : ω) :
    applyPlugins prepare protocolState (before ++ p.toPlugin :: q.toPlugin :: after) kwargs w =
      applyPlugins prepare protocolState (before ++ q.toPlugin :: p.toPlugin :: after) kwargs w := by
  obtain ⟨answer, answer', hanswer, hanswer', hnone⟩ := hpq
  refine applyPlugins_append_congr (fun kwargs w => ?_) before kwargs w
  simp only [applyPlugins_cons hanswer hp, applyPlugins_cons hanswer' hq]
  rcases hnone kwargs with h | h
  · rw [h, ite_self]
  · rw [h, ite_self]

/-- The loop ends with an answer that all plugins up to one of them agree on. -/
theorem applyPlugins_of_first {prepare : Plugin ω → PluginKwargs → ω → PluginKwargs × ω}
    {protocolState action : Str} {kwargs : PluginKwargs} {p : PluginModule ω}
    {answer : PluginKwargs → Except Exn Str} (hp : Standalone p answer)
    (hprepare : ∀ (q : PluginModule ω) answer, Standalone q answer →
      ∀ kwargs w, prepare q.toPlugin kwargs w = (kwargs, w))
    (hstate : protocolState ∈ p.smtpProtocolState.getD ["RCPT"])
    (hanswer : verdict (answer kwargs) = some action) {before : List (PluginModule ω)}
    (hbefore : ∀ q ∈ before, ∃ answer, Standalone q answer ∧
      (verdict (answer kwargs) = none ∨ verdict (answer kwargs) = some action))
    (after : List (Plugin ω)) (w : ω) :
    applyPlugins prepare protocolState (before.map PluginModule.toPlugin ++ p.toPlugin :: after)
      kwargs w = (.ok action, w) := by
  induction before with
  | nil =>
    rw [List.map_nil, List.nil_append, applyPlugins_cons hp (hprepare p answer hp), if_pos hstate,
      hanswer]
  | cons q before ih =>
    obtain ⟨answer', hq, hverdict⟩ := hbefore q List.mem_cons_self
    have hrest := ih fun q hq => hbefore q (List.mem_cons_of_mem _ hq)
    rw [List.map_cons, List.cons_append, applyPlugins_cons hq (hprepare q answer' hq)]
    split_ifs with hstate'
    · rcases hverdict with hnone | hsome
      · rw [hnone]
        exact hrest
      · rw [hsome]
    · exact hrest

/-! ### The modeler -/

section Modeler

variable [Unicode]

/-- The reply, when the plugins differ in what the loop does. -/
theorem handleData_congr {prepare : Plugin ω → PluginKwargs → ω → PluginKwargs × ω}
    {plugins plugins' : List (Plugin ω)} (hempty : plugins.isEmpty = plugins'.isEmpty)
    (h : ∀ protocolState kwargs w, applyPlugins prepare protocolState plugins kwargs w =
      applyPlugins prepare protocolState plugins' kwargs w) (s : Session) (w : ω) :
    handleData prepare plugins s w = handleData prepare plugins' s w := by
  unfold handleData
  rw [hempty]
  simp only [h]

variable {env : PluginEnv ω}

/-- Two names whose plugins may be exchanged, as far as they can be imported. -/
def PluginEnv.Independent (env : PluginEnv ω) (a b : Str) : Prop :=
  ∀ p q, env.importModule a = .ok p → env.importModule b = .ok q → Exchangeable p q

omit [Unicode] in
theorem imported_append_cons (env : PluginEnv ω) (before after : List Str) {a : Str}
    {p : PluginModule ω} (ha : env.importModule a = .ok p) :
    env.imported (before ++ a :: after) = env.imported before ++ p :: env.imported after := by
  unfold PluginEnv.imported
  simp only [List.filterMap_append, List.filterMap_cons, ha, Except.toOption]

omit [Unicode] in
/-- A plugin that has nothing looked up adds no attributes. -/
theorem attrlist_swap (env : PluginEnv ω) {attrs : PluginModule ω → Option (List Str)}
    {p q : PluginModule ω} (hp : attrs p = none) (before after : List (PluginModule ω)) :
    env.attrlist attrs (before ++ p :: q :: after) = env.attrlist attrs (before ++ q :: p :: after) := by
  unfold PluginEnv.attrlist
  simp only [List.flatMap_append, List.flatMap_cons, hp, Option.getD_none, List.nil_append]

omit [Unicode] in
/-- A name that cannot be imported may stand anywhere. -/
theorem imported_swap_of_error (env : PluginEnv ω) (before after : List Str) {a b : Str} {e : Exn}
    (h : env.importModule a = .error e ∨ env.importModule b = .error e) :
    env.imported (before ++ a :: b :: after) = env.imported (before ++ b :: a :: after) := by
  unfold PluginEnv.imported
  rcases h with h | h
  · simp only [List.filterMap_append, List.filterMap_cons, h, Except.toOption]
  · simp only [List.filterMap_append, List.filterMap_cons, h, Except.toOption]

/-- What the modeler of a backend does before it applies a plugin. -/
def prepareOf (backend : Backend) (getAccountLdif : List Str → GetAccountLdif ω)
    (loaded : LoadedPlugins ω) : Plugin ω → PluginKwargs → ω → PluginKwargs × ω :=
  match backend with
  | .ldap =>
    ldapPrepare (getAccountLdif loaded.senderSearchAttrlist)
      (getAccountLdif loaded.recipientSearchAttrlist)
  | .mysql | .pgsql => fun _ kwargs w => (kwargs, w)

theorem modelerHandleData_eq (backend : Backend) (getAccountLdif : List Str → GetAccountLdif ω)
    (loaded : LoadedPlugins ω) (s : Session) (w : ω) :
    modelerHandleData backend getAccountLdif loaded s w =
      handleData (prepareOf backend getAccountLdif loaded)
        (loaded.loadedPlugins.map PluginModule.toPlugin) s w := by
  cases backend with
  | ldap => rfl
  | mysql => rfl
  | pgsql => rfl

omit [Unicode] in
/-- Nothing is looked up for a plugin that keeps to itself. -/
theorem prepareOf_standalone (backend : Backend) (getAccountLdif : List Str → GetAccountLdif ω)
    (loaded : LoadedPlugins ω) {p : PluginModule ω} {answer : PluginKwargs → Except Exn Str}
    (hp : Standalone p answer) (kwargs : PluginKwargs) (w : ω) :
    prepareOf backend getAccountLdif loaded p.toPlugin kwargs w = (kwargs, w) := by
  cases backend with
  | ldap =>
    unfold prepareOf ldapPrepare
    simp only [hp.requireLocalSender_eq, hp.requireLocalRecipient_eq, Bool.false_eq_true, false_and,
      if_false]
  | mysql => rfl
  | pgsql => rfl

omit [Unicode] in
/-- What is done before a plugin depends on the attributes only. -/
theorem prepareOf_congr (backend : Backend) (getAccountLdif : List Str → GetAccountLdif ω)
    {loaded loaded' : LoadedPlugins ω}
    (hsender : loaded.senderSearchAttrlist = loaded'.senderSearchAttrlist)
    (hrecipient : loaded.recipientSearchAttrlist = loaded'.recipientSearchAttrlist) :
    prepareOf backend getAccountLdif loaded = prepareOf backend getAccountLdif loaded' := by
  unfold prepareOf
  rw [hsender, hrecipient]

/-- **Two independent names** may be exchanged where they stand next to each other. -/
theorem modelerHandleData_swap {a b : Str} (hab : env.Independent a b)
    (getAccountLdif : List Str → GetAccountLdif ω) (before after : List Str) (s : Session) (w : ω) :
    modelerHandleData env.backend getAccountLdif (env.load (before ++ a :: b :: after)) s w =
      modelerHandleData env.backend getAccountLdif (env.load (before ++ b :: a :: after)) s w := by
  cases ha : env.importModule a with
  | error e =>
    unfold PluginEnv.load
    rw [imported_swap_of_error env before after (.inl ha)]
  | ok p =>
    cases hb : env.importModule b with
    | error e =>
      unfold PluginEnv.load
      rw [imported_swap_of_error env before after (.inr hb)]
    | ok q =>
      have hpq := hab p q ha hb
      obtain ⟨answer, answer', hp, hq, -⟩ := id hpq
      have himported : ∀ x y : Str, ∀ p q : PluginModule ω, env.importModule x = .ok p →
          env.importModule y = .ok q → env.imported (before ++ x :: y :: after) =
            env.imported before ++ p :: q :: env.imported after := by
        intro x y p q hx hy
        have hrest : env.imported (y :: after) = q :: env.imported after :=
          imported_append_cons env [] after hy
        rw [imported_append_cons env before (y :: after) hx, hrest]
      have hload := himported a b p q ha hb
      have hload' := himported b a q p hb ha
      have hprepare : prepareOf env.backend getAccountLdif (env.load (before ++ a :: b :: after)) =
          prepareOf env.backend getAccountLdif (env.load (before ++ b :: a :: after)) := by
        refine prepareOf_congr env.backend getAccountLdif ?_ ?_
        · unfold PluginEnv.load
          dsimp only
          rw [hload, hload', attrlist_swap env hp.senderSearchAttrlist_eq]
        · unfold PluginEnv.load
          dsimp only
          rw [hload, hload', attrlist_swap env hp.recipientSearchAttrlist_eq]
      rw [modelerHandleData_eq, modelerHandleData_eq, hprepare]
      unfold PluginEnv.load
      dsimp only
      rw [hload, hload', List.map_append, List.map_cons, List.map_cons, List.map_append,
        List.map_cons, List.map_cons]
      have hempty : ∀ (x : Plugin ω) (xs ys : List (Plugin ω)), (xs ++ x :: ys).isEmpty = false := by
        intro x xs ys
        cases xs with
        | nil => rfl
        | cons y xs => rfl
      refine handleData_congr ((hempty _ _ _).trans (hempty _ _ _).symm)
        (fun protocolState kwargs w => ?_) s w
      exact applyPlugins_swap hpq (prepareOf_standalone _ _ _ hp) (prepareOf_standalone _ _ _ hq)
        protocolState _ _ kwargs w

/-- **The order in the setting does not matter**, when plugins with the same priority are independent:
every session gets the same reply, and leaves the same state. -/
theorem reply_of_perm {plugins plugins' : List Str} (hperm : plugins.Perm plugins')
    (hsame : ∀ a ∈ plugins, ∀ b ∈ plugins, a ≠ b → env.priority a = env.priority b →
      env.Independent a b) (hne : plugins ≠ [])
    (getAccountLdif : List Str → GetAccountLdif ω) (s : Session) (w : ω) :
    modelerHandleData env.backend getAccountLdif (env.loadEnabledPlugins plugins) s w =
      modelerHandleData env.backend getAccountLdif (env.loadEnabledPlugins plugins') s w := by
  have hne' : plugins' ≠ [] := fun hnil => hne (hperm.trans (.of_eq hnil)).eq_nil
  have hempty : plugins.isEmpty = false := by
    rw [Bool.eq_false_iff, ne_eq, List.isEmpty_iff]
    exact hne
  have hempty' : plugins'.isEmpty = false := by
    rw [Bool.eq_false_iff, ne_eq, List.isEmpty_iff]
    exact hne'
  unfold PluginEnv.loadEnabledPlugins PluginEnv.orderedPlugins
  simp only [hempty, hempty', Bool.false_eq_true, if_false]
  refine SortByKey.sortDesc_eq_of_perm
    (fun ordered => modelerHandleData env.backend getAccountLdif (env.load ordered) s w)
    (hperm.filter _) fun a ha b hb hab before after => ?_
  by_cases heq : a = b
  · rw [heq]
  · exact modelerHandleData_swap (hsame a (List.mem_filter.mp ha).1 b (List.mem_filter.mp hb).1 heq hab)
      getAccountLdif before after s w

end Modeler

/-! ### The plugins that come with the program -/

/-- The plugins that can be enabled with a backend. -/
def builtinPlugins : Backend → List Str
  | .ldap =>
    ["amavisd_wblist", "greylisting", "ldap_force_change_password", "ldap_maillist_access_policy",
      "reject_null_sender", "reject_sender_login_mismatch", "reject_to_hostname", "senderscore",
      "throttle", "wblist_rdns", "whitelist_outbound_recipient"]
  | .mysql | .pgsql =>
    ["amavisd_wblist", "greylisting", "reject_null_sender", "reject_sender_login_mismatch",
      "reject_to_hostname", "senderscore", "sql_alias_access_policy", "sql_force_change_password",
      "sql_ml_access_policy", "throttle", "wblist_rdns", "whitelist_outbound_recipient"]

/-- `reject_null_sender` as a module. -/
def rejectNullSender : PluginModule ω where
  smtpProtocolState := none
  restriction kwargs w := ((RejectNullSender.restriction kwargs).map some, w)

/-- `reject_to_hostname` as a module. -/
def rejectToHostname (settings : Settings) (serverHostname : Str) : PluginModule ω where
  smtpProtocolState := none
  restriction kwargs w := ((RejectToHostname.restriction settings serverHostname kwargs).map some, w)

/-- What is imported under the two names; the second need not be there. -/
structure PluginEnv.Builtin (env : PluginEnv ω) (settings : Settings) (serverHostname : Str) : Prop where
  rejectNullSender_eq : env.importModule "reject_null_sender".toList = .ok rejectNullSender
  eq_rejectToHostname : ∀ p, env.importModule "reject_to_hostname".toList = .ok p →
    p = rejectToHostname settings serverHostname

theorem standalone_rejectNullSender :
    Standalone (ω := ω) rejectNullSender RejectNullSender.restriction :=
  ⟨fun _ _ => rfl, rfl, rfl, rfl, rfl⟩

theorem standalone_rejectToHostname (settings : Settings) (serverHostname : Str) :
    Standalone (ω := ω) (rejectToHostname settings serverHostname)
      (RejectToHostname.restriction settings serverHostname) :=
  ⟨fun _ _ => rfl, rfl, rfl, rfl, rfl⟩

/-- One of them answers authenticated clients only, the other one all but these. -/
theorem verdict_eq_none_or (settings : Settings) (serverHostname : Str) (kwargs : PluginKwargs) :
    verdict (RejectNullSender.restriction kwargs) = none ∨
      verdict (RejectToHostname.restriction settings serverHostname kwargs) = none := by
  by_cases hsasl : kwargs.saslUsername = []
  · left
    unfold RejectNullSender.restriction
    rw [if_neg fun h => h.1 hsasl]
    rfl
  · right
    unfold RejectToHostname.restriction
    rw [if_pos hsasl]
    rfl

theorem exchangeable_builtin (settings : Settings) (serverHostname : Str) :
    Exchangeable (ω := ω) rejectNullSender (rejectToHostname settings serverHostname) :=
  ⟨_, _, standalone_rejectNullSender, standalone_rejectToHostname settings serverHostname,
    verdict_eq_none_or settings serverHostname⟩

theorem Exchangeable.symm {p q : PluginModule ω} (h : Exchangeable p q) : Exchangeable q p := by
  obtain ⟨answer, answer', hp, hq, hnone⟩ := h
  exact ⟨answer', answer, hq, hp, fun kwargs => (hnone kwargs).symm⟩

/-- The settings add nothing to the table. -/
theorem priority_eq {env : PluginEnv ω} (hpriorities : env.pluginPriorities = []) (p : Str) :
    env.priority p = (pluginPriorities.get? p).getD 0 := by
  unfold PluginEnv.priority
  rw [hpriorities]
  rfl

/-- Two plugins of one backend have different priorities, or are the two. -/
theorem priority_injective (backend : Backend) :
    ∀ a ∈ builtinPlugins backend, ∀ b ∈ builtinPlugins backend, a ≠ b →
      (pluginPriorities.get? a).getD 0 = (pluginPriorities.get? b).getD 0 →
        a = "reject_null_sender".toList ∧ b = "reject_to_hostname".toList ∨
          a = "reject_to_hostname".toList ∧ b = "reject_null_sender".toList := by
  cases backend <;> decide

/-- **The order of the plugins in the setting does not matter** for those that come with the program,
under the priorities they come with: whatever the other plugins do, the reply to every session and the
state it leaves are the same. -/
theorem plugin_order_irrelevant [Unicode] {env : PluginEnv ω} (hpriorities : env.pluginPriorities = [])
    {settings : Settings} {serverHostname : Str} (hbuiltin : env.Builtin settings serverHostname)
    {plugins plugins' : List Str} (hplugins : plugins ⊆ builtinPlugins env.backend)
    (hperm : plugins.Perm plugins') (hne : plugins ≠ [])
    (getAccountLdif : List Str → GetAccountLdif ω) (s : Session) (w : ω) :
    modelerHandleData env.backend getAccountLdif (env.loadEnabledPlugins plugins) s w =
      modelerHandleData env.backend getAccountLdif (env.loadEnabledPlugins plugins') s w := by
  refine reply_of_perm hperm (fun a ha b hb hab hpriority => ?_) hne getAccountLdif s w
  rw [priority_eq hpriorities, priority_eq hpriorities] at hpriority
  have hexchangeable := exchangeable_builtin (ω := ω) settings serverHostname
  intro p q hp hq
  rcases priority_injective env.backend a (hplugins ha) b (hplugins hb) hab hpriority with
    ⟨rfl, rfl⟩ | ⟨rfl, rfl⟩
  · rw [hbuiltin.rejectNullSender_eq] at hp
    rw [← Except.ok.inj hp, hbuiltin.eq_rejectToHostname q hq]
    exact hexchangeable
  · rw [hbuiltin.rejectNullSender_eq] at hq
    rw [← Except.ok.inj hq, hbuiltin.eq_rejectToHostname p hp]
    exact hexchangeable.symm

/-- A backend with no plugins but these two. -/
def rejectEnv (settings : Settings) : PluginEnv Unit where
  backend := .mysql
  isfile p := p = "reject_null_sender".toList ∨ p = "reject_to_hostname".toList
  importModule p :=
    if p = "reject_null_sender".toList then .ok rejectNullSender
    else if p = "reject_to_hostname".toList then .ok (rejectToHostname settings "mx.b.com")
    else .error .attributeError

theorem rejectEnv_builtin (settings : Settings) : (rejectEnv settings).Builtin settings "mx.b.com" :=
  ⟨rfl, fun _ h => (Except.ok.inj h).symm⟩

/-- An authenticated client with no sender. -/
def nullSenderSession : Session :=
  [("protocol_state", "RCPT"), ("sender", ""), ("sender_without_ext", ""), ("recipient", "c@b.com"),
    ("recipient_without_ext", "c@b.com"), ("sasl_username", "a@b.com")]

theorem plugin_order_irrelevant_two :
    letI := asciiUnicode
    modelerHandleData (rejectEnv {}).backend (fun _ _ w => ((none, none), w))
        ((rejectEnv {}).loadEnabledPlugins ["reject_to_hostname", "reject_null_sender"]) nullSenderSession () =
      modelerHandleData (rejectEnv {}).backend (fun _ _ w => ((none, none), w))
        ((rejectEnv {}).loadEnabledPlugins ["reject_null_sender", "reject_to_hostname"]) nullSenderSession () :=
  let := asciiUnicode
  plugin_order_irrelevant rfl (rejectEnv_builtin {}) (by decide) (List.Perm.swap _ _ []) (by decide) _ _ _

/-- No other plugin has a priority like theirs. -/
theorem eq_of_priority_ge {a : Str} (h : 100 ≤ (pluginPriorities.get? a).getD 0) :
    a = "reject_null_sender".toList ∨ a = "reject_to_hostname".toList := by
  have hall : ∀ kv ∈ pluginPriorities, 100 ≤ kv.2 →
      kv.1 = "reject_null_sender".toList ∨ kv.1 = "reject_to_hostname".toList := by decide
  cases hget : pluginPriorities.get? a with
  | none =>
    rw [hget] at h
    exact absurd h (by decide)
  | some v =>
    rw [hget] at h
    exact hall (a, v) (Dict.mem_of_get? hget) h

theorem verdict_rejectNullSender {kwargs : PluginKwargs} (hsasl : kwargs.saslUsername ≠ [])
    (hsender : kwargs.sender = []) :
    verdict (RejectNullSender.restriction kwargs) = some RejectNullSender.rejectNullSender := by
  unfold RejectNullSender.restriction
  rw [if_pos ⟨hsasl, hsender⟩]
  rfl

/-- Where it stands among the loaded plugins: nothing but the two goes before it, and these do not
disagree about a client without a sender. -/
theorem exists_loadedPlugins_eq {env : PluginEnv ω} (hpriorities : env.pluginPriorities = [])
    {settings : Settings} {serverHostname : Str} (hbuiltin : env.Builtin settings serverHostname)
    {plugins : List Str} (hmem : "reject_null_sender".toList ∈ plugins)
    (hfile : env.isfile "reject_null_sender".toList = true) :
    ∃ before after, (env.loadEnabledPlugins plugins).loadedPlugins = before ++ rejectNullSender :: after ∧
      ∀ kwargs : PluginKwargs, kwargs.saslUsername ≠ [] → kwargs.sender = [] →
        ∀ p ∈ before, ∃ answer, Standalone p answer ∧ (verdict (answer kwargs) = none ∨
          verdict (answer kwargs) = some RejectNullSender.rejectNullSender) := by
  have hempty : plugins.isEmpty = false := by
    rw [Bool.eq_false_iff, ne_eq, List.isEmpty_iff]
    exact List.ne_nil_of_mem hmem
  obtain ⟨before, after, hordered⟩ : ∃ before after,
      SortByKey.sortDesc env.priority (plugins.filter env.isfile) =
        before ++ "reject_null_sender".toList :: after :=
    List.append_of_mem ((SortByKey.sortDesc_perm _ _).mem_iff.mpr (List.mem_filter.mpr ⟨hmem, hfile⟩))
  have hnames : ∀ a ∈ before, a = "reject_null_sender".toList ∨ a = "reject_to_hostname".toList := by
    intro a ha
    have hpriority := (SortByKey.key_le_of_sortDesc_eq hordered a ha).2
    rw [priority_eq hpriorities, priority_eq hpriorities] at hpriority
    exact eq_of_priority_ge hpriority
  refine ⟨env.imported before, env.imported after, ?_, ?_⟩
  · unfold PluginEnv.loadEnabledPlugins PluginEnv.orderedPlugins PluginEnv.load
    simp only [hempty, Bool.false_eq_true, if_false, hordered]
    exact imported_append_cons env before after hbuiltin.rejectNullSender_eq
  · intro kwargs hsasl hsender p hp
    obtain ⟨a, ha, himport⟩ := List.mem_filterMap.mp hp
    rcases hnames a ha with rfl | rfl
    · rw [hbuiltin.rejectNullSender_eq] at himport
      obtain rfl := Option.some.inj himport
      exact ⟨_, standalone_rejectNullSender, .inr (verdict_rejectNullSender hsasl hsender)⟩
    · cases himported : env.importModule "reject_to_hostname".toList with
      | error e =>
        rw [himported] at himport
        cases himport
      | ok q =>
        rw [himported] at himport
        obtain rfl := Option.some.inj himport
        obtain rfl := hbuiltin.eq_rejectToHostname q himported
        refine ⟨_, standalone_rejectToHostname settings serverHostname, .inl ?_⟩
        unfold RejectToHostname.restriction
        rw [if_pos hsasl]
        rfl

/-- **An authenticated client that gives no sender is rejected**, under the priorities the plugins come
with, as soon as `reject_null_sender` is enabled: whatever the other plugins are and do, and wherever
the setting names it, none of them is asked before, and nothing is changed. -/
theorem null_sender_rejected [Unicode] {env : PluginEnv ω} (hpriorities : env.pluginPriorities = [])
    {settings : Settings} {serverHostname : Str} (hbuiltin : env.Builtin settings serverHostname)
    {plugins : List Str} (hmem : "reject_null_sender".toList ∈ plugins)
    (hfile : env.isfile "reject_null_sender".toList = true)
    (getAccountLdif : List Str → GetAccountLdif ω) {s : Session}
    (hstate : (s.get? "protocol_state").map Unicode.upper = some "RCPT".toList)
    (hwithoutExt : s.get? "sender_without_ext" ≠ none ∧ s.get? "recipient_without_ext" ≠ none)
    (hsasl : s.getOrEmpty "sasl_username" ≠ []) (hsender : s.getOrEmpty "sender" = []) (w : ω) :
    modelerHandleData env.backend getAccountLdif (env.loadEnabledPlugins plugins) s w =
      (.ok RejectNullSender.rejectNullSender, w) := by
  obtain ⟨before, after, hload, hbefore⟩ := exists_loadedPlugins_eq hpriorities hbuiltin hmem hfile
  obtain ⟨protocolState, hget, hupper⟩ := Option.map_eq_some_iff.mp hstate
  obtain ⟨senderWithoutExt, hsenderExt⟩ := Option.ne_none_iff_exists'.mp hwithoutExt.1
  obtain ⟨recipientWithoutExt, hrecipientExt⟩ := Option.ne_none_iff_exists'.mp hwithoutExt.2
  rw [modelerHandleData_eq, hload, List.map_append, List.map_cons]
  unfold handleData
  rw [if_neg (by simp), hget, hsenderExt, hrecipientExt]
  dsimp only
  rw [hupper]
  exact applyPlugins_of_first standalone_rejectNullSender
    (fun _ _ => prepareOf_standalone env.backend getAccountLdif _) List.mem_cons_self
    (verdict_rejectNullSender hsasl hsender) (hbefore _ hsasl hsender) _ w

theorem null_sender_rejected_second :
    letI := asciiUnicode
    modelerHandleData (rejectEnv {}).backend (fun _ _ w => ((none, none), w))
        ((rejectEnv {}).loadEnabledPlugins ["reject_to_hostname", "reject_null_sender"]) nullSenderSession () =
      (.ok RejectNullSender.rejectNullSender, ()) :=
  let := asciiUnicode
  null_sender_rejected rfl (rejectEnv_builtin {}) (by decide) rfl _ (by decide) ⟨by decide, by decide⟩
    (by decide) (by decide) _

end IRedAPD
