/-
  The plugins answer with actions.

  A plugin may return `None`, on which the loop of the modeler raises, or an
  empty text.  Those here do neither: they return an action unless they raise
  (`returnsAction`), and then the default action is taken.  So the modelers have
  an answer to every session, whichever of these plugins are enabled
  (`sqlHandleData_answers`, `ldapHandleData_answers`).
-/
import IRedAPD.Equiv.Libs.LoadPlugins
import IRedAPD.Equiv.Modeler
import IRedAPD.Equiv.Plugins.SqlAliasAccessPolicy
import IRedAPD.Equiv.Plugins.SqlMlAccessPolicy
import IRedAPD.Plugins.AmavisdWblist
import IRedAPD.Plugins.LdapMaillistAccessPolicy
import IRedAPD.Plugins.RejectSenderLoginMismatch
import IRedAPD.Plugins.WhitelistOutboundRecipient

namespace IRedAPD

open Py

/-! ### Computations that may raise -/

section Yields

variable {ε α β : Type} {P : α → Prop}

/-- What is returned, if anything is, has a property. -/
def Yields (P : α → Prop) (x : Except ε α) : Prop := ∀ a, x = .ok a → P a

theorem Yields.ok {a : α} (h : P a) : Yields P (.ok a : Except ε α) := by
  rintro _ ⟨⟩
  exact h

theorem Yields.error (e : ε) : Yields P (.error e) := by
  rintro a ⟨⟩

theorem Yields.bind {x : Except ε β} {f : β → Except ε α} (h : ∀ b, x = .ok b → Yields P (f b)) :
    Yields P (x >>= f) := by
  cases x with
  | error e => exact .error e
  | ok b => exact h b rfl

theorem Yields.ite {c : Prop} [Decidable c] {x y : Except ε α} (hx : Yields P x) (hy : Yields P y) :
    Yields P (if c then x else y) := by
  split_ifs
  · exact hx
  · exact hy

end Yields

/-! ### Actions -/

/-- An action is not empty. -/
def IsAction (action : Str) : Prop := action ≠ []

theorem isAction_default : IsAction SmtpActions.defaultAction := by
  unfold IsAction
  decide

/-- The default action with a remark. -/
theorem isAction_append {action : Str} (h : IsAction action) (remark : Str) :
    IsAction (action ++ remark) := List.append_ne_nil_of_left_ne_nil h _

theorem isAction_rejectNotAuthorized : IsAction SmtpActions.rejectNotAuthorized := by
  unfold IsAction
  decide

theorem isAction_passes (b : Bool) : IsAction (passes b) := by
  cases b with
  | true => exact isAction_default
  | false => exact isAction_rejectNotAuthorized

variable {ω : Type*}

/-- A plugin that only reads. -/
theorem returnsAction_of_yields (restriction : PluginKwargs → ω → Except Exn Str)
    (h : ∀ kwargs w, Yields IsAction (restriction kwargs w)) {plugin : Plugin ω}
    (hplugin : ∀ kwargs w, plugin.restriction kwargs w = ((restriction kwargs w).map some, w)) :
    ReturnsAction plugin := by
  intro kwargs w result w' hresult
  rw [hplugin, Prod.mk.injEq] at hresult
  cases haction : restriction kwargs w with
  | error e =>
    rw [haction] at hresult
    cases hresult.1
  | ok action =>
    rw [haction] at hresult
    exact ⟨action, (Except.ok.inj hresult.1).symm, h kwargs w action haction⟩

/-! ### The plugins -/

/-- `reject_null_sender` -/
theorem returnsAction_rejectNullSender :
    ReturnsAction (rejectNullSender : PluginModule ω).toPlugin := by
  refine returnsAction_of_yields (fun kwargs _ => RejectNullSender.restriction kwargs)
    (fun kwargs w => ?_) fun _ _ => rfl
  have haction : IsAction RejectNullSender.rejectNullSender := by
    unfold IsAction
    decide
  exact .ite (.ok haction) (.ok isAction_default)

/-- `reject_to_hostname` -/
theorem returnsAction_rejectToHostname (settings : Settings) (serverHostname : Str) :
    ReturnsAction (rejectToHostname settings serverHostname : PluginModule ω).toPlugin := by
  refine returnsAction_of_yields (fun kwargs _ => RejectToHostname.restriction settings serverHostname kwargs)
    (fun kwargs w => ?_) fun _ _ => rfl
  refine .ite (.ok isAction_default) ?_
  cases isTrustedClient settings kwargs.clientAddress with
  | error e => exact .error e
  | ok trusted =>
    cases trusted with
    | true => exact .ok isAction_default
    | false =>
      exact .ite (.ite (.ok isAction_rejectNotAuthorized) (.ok isAction_default))
        (.ok isAction_default)

/-- Both plugins for lists look up an account and check its policy. -/
theorem yields_restrictionBy [Unicode] {tables : ω → Except Exn AccountTables}
    {accounts : AccountTables → List PolicyAccount}
    {check : PluginKwargs → Str → Str → Str → ω → Except Exn Str} (noDomain noAccount : Str)
    (hcheck : ∀ kwargs mail domain policy w, Yields IsAction (check kwargs mail domain policy w))
    (kwargs : PluginKwargs) (w : ω) :
    Yields IsAction (restrictionBy tables accounts check noDomain noAccount kwargs w) := by
  unfold restrictionBy
  refine .bind fun db _ => ?_
  cases getAccessPolicy (accounts db) kwargs.recipientWithoutExt with
  | some policy => exact hcheck _ _ _ _ _
  | none =>
    refine .bind fun db _ => .ite (.ok (isAction_append isAction_default _)) (.bind fun db' _ => ?_)
    cases getAccessPolicy (accounts db') (splitFirst "@" kwargs.recipientWithoutExt ++ '@' ::
        (getAliasTargetDomain db kwargs.recipientDomain).getD []) with
    | some policy => exact hcheck _ _ _ _ _
    | none => exact .ok (isAction_append isAction_default _)

namespace SqlMlAccessPolicy

variable [Unicode]

omit [Unicode] in
theorem yields_checkPolicy (tables : ω → Except Exn AccountTables) (kwargs : PluginKwargs)
    (realRecipientDomain policy : Str) (w : ω) :
    Yields IsAction (checkPolicy tables kwargs realRecipientDomain policy w) := by
  have hremark : ∀ remark, IsAction (SmtpActions.defaultAction ++ remark) :=
    isAction_append isAction_default
  unfold checkPolicy
  refine .ite (.ok (hremark _)) (.ite (.ok (hremark _)) ?_)
  refine .bind fun _ _ => .bind fun _ _ => .ite (.ok isAction_default) ?_
  refine .bind fun _ _ => .ite (.ok isAction_default) ?_
  exact .ite (.ok (isAction_passes _)) (.ite (.ok (isAction_passes _)) (.ok (hremark _)))

theorem returnsAction (tables : ω → Except Exn AccountTables) : ReturnsAction (plugin tables) := by
  refine returnsAction_of_yields (restriction tables) (fun kwargs w => ?_) fun _ _ => rfl
  rw [restriction_eq]
  exact yields_restrictionBy _ _ (fun kwargs _ => yields_checkPolicy tables kwargs) kwargs w

end SqlMlAccessPolicy

namespace SqlAliasAccessPolicy

variable [Unicode]

omit [Unicode] in
/-- Five policies let a sender pass or not, and any other lets all pass. -/
theorem yields_byPolicy {p₁ p₂ p₃ p₄ p₅ : Prop} [Decidable p₁] [Decidable p₂] [Decidable p₃]
    [Decidable p₄] [Decidable p₅] {b₁ b₂ b₃ b₄ b₅ : Bool} {other : Str} (hother : IsAction other) :
    Yields IsAction (if p₁ then .ok (passes b₁) else if p₂ then .ok (passes b₂)
      else if p₃ then .ok (passes b₃) else if p₄ then .ok (passes b₄)
      else if p₅ then .ok (passes b₅) else .ok other : Except Exn Str) := by
  have hpasses : ∀ b, Yields IsAction (.ok (passes b) : Except Exn Str) := fun b => .ok (isAction_passes b)
  exact .ite (hpasses _) (.ite (hpasses _) (.ite (hpasses _) (.ite (hpasses _) (.ite (hpasses _)
    (.ok hother)))))

theorem yields_checkPolicy (tables : ω → Except Exn AccountTables) (kwargs : PluginKwargs)
    (realRecipient realRecipientDomain policy : Str) (w : ω) :
    Yields IsAction (checkPolicy tables kwargs realRecipient realRecipientDomain policy w) := by
  have hother : IsAction (SmtpActions.defaultAction ++ " (Unsupported policy: ".toList ++
      currentPolicy policy ++ ". Bypass.)".toList) :=
    isAction_append (isAction_append (isAction_append isAction_default _) _) _
  unfold checkPolicy
  refine .ite (.ok (isAction_append isAction_default _)) (.bind fun _ _ => ?_)
  -- the members and the moderators are looked up only for the policies that need them
  refine .ite (.bind fun _ _ => .bind fun _ _ => ?_) (.bind fun _ _ => ?_)
  · exact .ite (.bind fun _ _ => .bind fun _ _ => yields_byPolicy hother)
      (.bind fun _ _ => yields_byPolicy hother)
  · exact .ite (.bind fun _ _ => .bind fun _ _ => yields_byPolicy hother)
      (.bind fun _ _ => yields_byPolicy hother)

theorem returnsAction (tables : ω → Except Exn AccountTables) : ReturnsAction (plugin tables) := by
  refine returnsAction_of_yields (restriction tables) (fun kwargs w => ?_) fun _ _ => rfl
  rw [restriction_eq]
  exact yields_restrictionBy _ _ (yields_checkPolicy tables) kwargs w

end SqlAliasAccessPolicy

namespace AmavisdWblist

theorem isAction_rejectAction (settings : Settings) : IsAction (rejectAction settings) := by
  unfold rejectAction IsAction
  split_ifs
  · decide
  · decide

/-- What is found is an action, and the default action is for nothing. -/
theorem isAction_getD {found : Option Str} (h : ∀ action, found = some action → IsAction action) :
    IsAction (found.getD SmtpActions.defaultAction) := by
  cases found with
  | none => exact isAction_default
  | some action => exact h action rfl

theorem yields_applyInboundWblist (settings : Settings) (conn : AmavisdConn ω)
    (senderIds recipientIds : List ℕ) (w : ω) :
    Yields IsAction (applyInboundWblist settings conn senderIds recipientIds w) := by
  unfold applyInboundWblist
  refine .ite (.ok isAction_default) (.bind fun rows _ => .ite (.ok isAction_default) (.ok ?_))
  refine isAction_getD fun action hfound => ?_
  obtain ⟨rid, -, hrid⟩ := List.exists_of_findSome?_eq_some hfound
  obtain ⟨sid, -, hsid⟩ := List.exists_of_findSome?_eq_some hrid
  split_ifs at hsid
  · obtain rfl := Option.some.inj hsid
    unfold IsAction
    decide
  · obtain rfl := Option.some.inj hsid
    exact isAction_rejectAction settings

theorem yields_applyOutboundWblist (settings : Settings) (conn : AmavisdConn ω)
    (senderIds recipientIds : List ℕ) (w : ω) :
    Yields IsAction (applyOutboundWblist settings conn senderIds recipientIds w) := by
  unfold applyOutboundWblist
  refine .ite (.ok isAction_default) (.ite (.ok isAction_default) ?_)
  refine .bind fun rows _ => .ite (.ok isAction_default) (.ok ?_)
  refine isAction_getD fun action hfound => ?_
  obtain ⟨sid, -, hsid⟩ := List.exists_of_findSome?_eq_some hfound
  obtain ⟨rid, -, hrid⟩ := List.exists_of_findSome?_eq_some hsid
  unfold outboundEntry at hrid
  split_ifs at hrid
  · obtain rfl := Option.some.inj hrid
    unfold outboundWhitelisted
    simp only [List.append_assoc]
    exact isAction_append isAction_default _
  · obtain rfl := Option.some.inj hrid
    exact isAction_rejectAction settings

theorem yields_applyInbound (settings : Settings) (calls : Calls ω) (conn : AmavisdConn ω)
    (kwargs : PluginKwargs) (rcptTarget : Option Str) (senders recipients : List Str) (w : ω) :
    Yields IsAction (applyInbound settings calls conn kwargs rcptTarget senders recipients w) := by
  unfold applyInbound
  -- on either way to know whether the mail is inbound
  refine .ite (.bind fun _ _ => ?_) (.bind fun _ _ => .bind fun _ _ => ?_)
  · refine .ite (.bind fun action haction => ?_) (.ok isAction_default)
    exact .ite (.ok (yields_applyInboundWblist _ _ _ _ _ action haction)) (.ok isAction_default)
  · refine .ite (.bind fun action haction => ?_) (.ok isAction_default)
    exact .ite (.ok (yields_applyInboundWblist _ _ _ _ _ action haction)) (.ok isAction_default)

theorem yields_applyWblist (settings : Settings) (calls : Calls ω) (conn : AmavisdConn ω)
    (kwargs : PluginKwargs) (rcptTarget : Option Str) (senders recipients : List Str) (w : ω) :
    Yields IsAction (applyWblist settings calls conn kwargs rcptTarget senders recipients w) := by
  have hinbound := yields_applyInbound settings calls conn kwargs rcptTarget senders recipients w
  unfold applyWblist
  refine .ite (.bind fun action haction => ?_) hinbound
  exact .ite (.ok (yields_applyOutboundWblist _ _ _ _ _ action haction)) hinbound

theorem returnsAction [Unicode] (settings : Settings) (calls : Calls ω) :
    ReturnsAction (plugin settings calls) := by
  refine returnsAction_of_yields _ (fun kwargs w => ?_) fun _ _ => rfl
  unfold restriction
  cases calls.engineAmavisd with
  | none => exact .ok isAction_default
  | some conn =>
    refine .ite (.ok isAction_default) (.ite (.ok isAction_default) ?_)
    exact .bind fun _ _ => .bind fun _ _ => yields_applyWblist _ _ _ _ _ _ _ _

end AmavisdWblist

namespace LdapMaillistAccessPolicy

theorem isAction_checkDomain (policy senderDomain : Str) (validRcptDomains : List Str) :
    IsAction (checkDomain policy senderDomain validRcptDomains) := by
  unfold checkDomain
  split_ifs
  · exact isAction_default
  · exact isAction_rejectNotAuthorized
  · exact isAction_default
  · exact isAction_rejectNotAuthorized

theorem isAction_checkMembersAndModerators (calls : Calls ω) (dnRcptDomain recipient sender : Str)
    (w : ω) : IsAction (checkMembersAndModerators calls dnRcptDomain recipient sender w) := by
  unfold checkMembersAndModerators
  dsimp only
  split
  · split_ifs
    · exact isAction_default
    · exact isAction_rejectNotAuthorized
  · exact isAction_append isAction_default _

theorem isAction_checkExplicitlyAllowed {sender senderDomain action : Str} {allowed : List Str}
    (h : checkExplicitlyAllowed sender senderDomain allowed = some action) : IsAction action := by
  unfold checkExplicitlyAllowed defaultWith at h
  split_ifs at h
  · rw [← Option.some.inj h]
    exact isAction_append isAction_default _
  · rw [← Option.some.inj h]
    exact isAction_append isAction_default _
  · rw [← Option.some.inj h]
    exact isAction_append isAction_default _

variable [Unicode]

theorem yields_checkPolicy (calls : Calls ω) (kwargs : PluginKwargs) (policy : Str)
    (validRcptDomains explicitlyAllowed : List Str) (w : ω) :
    Yields IsAction (checkPolicy calls kwargs policy validRcptDomains explicitlyAllowed w) := by
  unfold checkPolicy checkMembers checkModerators
  refine .ite (.ok (isAction_checkDomain _ _ _)) (.ite ?_ ?_)
  · exact .bind fun _ _ => .bind fun _ _ => .ite (.ok isAction_default) (.ok isAction_rejectNotAuthorized)
  refine .ite (.ok (isAction_checkMembersAndModerators _ _ _ _ _)) (.ite (.ite ?_ ?_) ?_)
  · exact .ok isAction_rejectNotAuthorized
  · exact .bind fun _ _ => .bind fun _ _ => .ite (.ok isAction_default) (.ok isAction_rejectNotAuthorized)
  · exact .ok (isAction_append isAction_default _)

theorem yields_checkSender (calls : Calls ω) (kwargs : PluginKwargs) (recipientLdif : Ldif)
    (policy : Str) (w : ω) : Yields IsAction (checkSender calls kwargs recipientLdif policy w) := by
  unfold checkSender
  dsimp only
  cases getPrimaryAndAliasDomains calls.sets calls.searchS calls.ldapBasedn kwargs.recipientDomain w with
  | none => exact .error _
  | some validRcptDomains =>
    refine .ite (.ok isAction_default) (.ite (.ok isAction_default) ?_)
    cases hallowed : checkExplicitlyAllowed kwargs.senderWithoutExt kwargs.senderDomain
      (getValues recipientLdif "listAllowedUser") with
    | some action => exact .ok (isAction_checkExplicitlyAllowed hallowed)
    | none => exact yields_checkPolicy _ _ _ _ _ _

theorem yields_checkList (calls : Calls ω) (kwargs : PluginKwargs) (recipientLdif : Ldif) (w : ω) :
    Yields IsAction (checkList calls kwargs recipientLdif w) := by
  have hreject : IsAction SmtpActions.reject := by
    unfold IsAction
    decide
  unfold checkList
  refine .ite (.ok hreject) (.bind fun policy _ => .ite (.ok (isAction_append isAction_default _)) ?_)
  exact .ite (.ok isAction_default) (yields_checkSender _ _ _ _ _)

theorem returnsAction (calls : Calls ω) : ReturnsAction (plugin calls) := by
  refine returnsAction_of_yields _ (fun kwargs w => ?_) fun _ _ => rfl
  have hremark : ∀ remark, Yields IsAction (.ok (defaultWith remark) : Except Exn Str) :=
    fun remark => .ok (isAction_append isAction_default remark)
  unfold restriction
  refine .ite (hremark _) ?_
  match kwargs.recipientLdif with
  | none => exact hremark _
  | some [] => exact hremark _
  | some (attr :: attrs) =>
    dsimp only
    cases Dict.get? (attr :: attrs) "objectClass".toList with
    | none => exact .error _
    | some objectClass => exact .ite (hremark _) (yields_checkList _ _ _ _)

end LdapMaillistAccessPolicy

namespace RejectSenderLoginMismatch

theorem isAction_rejectSenderLoginMismatch : IsAction SmtpActions.rejectSenderLoginMismatch := by
  unfold IsAction
  decide

theorem yields_checkForged (settings : Settings) (calls : Calls ω)
    (sender senderName senderDomain : Str) (kwargs : PluginKwargs) (w : ω) :
    Yields IsAction (checkForged settings calls sender senderName senderDomain kwargs w) := by
  have hforged : IsAction SmtpActions.rejectForgedSender := by
    unfold IsAction
    decide
  unfold checkForged
  refine .bind fun _ _ => .ite (.ok isAction_default) (.ite (.ok isAction_default) ?_)
  have hspf : Yields IsAction (if settings.checkSpfIfLoginMismatch then do
        if ← calls.isAllowedServerInSpf senderDomain kwargs.clientAddress w then
          return SmtpActions.defaultAction
        return SmtpActions.rejectForgedSender
      else return SmtpActions.rejectForgedSender) :=
    .ite (.bind fun _ _ => .ite (.ok isAction_default) (.ok hforged)) (.ok hforged)
  have hlocal : ∀ isLocal : Bool, Yields IsAction (if !isLocal then return SmtpActions.defaultAction
      else if settings.checkSpfIfLoginMismatch then do
        if ← calls.isAllowedServerInSpf senderDomain kwargs.clientAddress w then
          return SmtpActions.defaultAction
        return SmtpActions.rejectForgedSender
      else return SmtpActions.rejectForgedSender) := fun _ => .ite (.ok isAction_default) hspf
  refine .ite (.ok isAction_default) ?_
  exact .ite (.bind fun isLocal _ => hlocal isLocal) (.bind fun isLocal _ => hlocal isLocal)

theorem isAction_checkMlmmj (settings : Settings) (calls : Calls ω) (realSender saslUsername : Str)
    (w : ω) : IsAction (checkMlmmj settings calls realSender saslUsername w) := by
  unfold checkMlmmj
  split_ifs
  · split
    · exact isAction_default
    · exact isAction_rejectSenderLoginMismatch
    · exact isAction_rejectSenderLoginMismatch
  · exact isAction_rejectSenderLoginMismatch

theorem yields_checkAuthenticated (settings : Settings) (calls : Calls ω)
    (sender senderName senderDomain : Str) (kwargs : PluginKwargs) (w : ω) :
    Yields IsAction (checkAuthenticated settings calls sender senderName senderDomain kwargs w) := by
  unfold checkAuthenticated
  refine .ite (.ok isAction_default) (.ite (.ok isAction_rejectSenderLoginMismatch) ?_)
  refine .ite (.ok isAction_default) (.bind fun lookup _ => ?_)
  cases lookup with
  | accept => exact .ok isAction_default
  | checkMlmmj realSender => exact .ok (isAction_checkMlmmj _ _ _ _ _)
  | unknown => exact .ok isAction_rejectSenderLoginMismatch

theorem returnsAction [Unicode] (settings : Settings) (calls : Calls ω) :
    ReturnsAction (plugin settings calls) := by
  refine returnsAction_of_yields _ (fun kwargs w => ?_) fun _ _ => rfl
  have hparts : ∀ senderName senderDomain : Str, Yields IsAction
      (if kwargs.saslUsername ≠ [] ∧ kwargs.senderWithoutExt = [] then
        (.ok SmtpActions.defaultAction : Except Exn Str)
      else if kwargs.saslUsername = [] then
        checkForged settings calls kwargs.senderWithoutExt senderName senderDomain kwargs w
      else checkAuthenticated settings calls kwargs.senderWithoutExt senderName senderDomain kwargs w) :=
    fun _ _ => .ite (.ok isAction_default) (.ite (yields_checkForged _ _ _ _ _ _ _)
      (yields_checkAuthenticated _ _ _ _ _ _ _))
  unfold restriction
  refine .ite (.bind fun parts _ => hparts parts.1 parts.2) ?_
  dsimp only
  cases splitOnce "@".toList kwargs.senderWithoutExt with
  | none => exact .error _
  | some parts => exact .bind fun parts _ => hparts parts.1 parts.2

end RejectSenderLoginMismatch

namespace WhitelistOutboundRecipient

theorem yields_ite {c : Prop} [Decidable c] {run run' : Run} (h : Yields IsAction run.result)
    (h' : Yields IsAction run'.result) : Yields IsAction (if c then run else run').result := by
  split_ifs
  · exact h
  · exact h'

variable [Unicode]

theorem yields_restriction (settings : Settings) (engine : LibGl.Engine)
    (isLocalDomain : Str → Except Exn Bool) (kwargs : PluginKwargs) (t : LibGl.Tables) :
    Yields IsAction (restriction settings engine isLocalDomain kwargs t).result := by
  have hdone : Yields IsAction (done t).result := .ok isAction_default
  unfold restriction
  refine yields_ite hdone (yields_ite hdone (yields_ite hdone (yields_ite hdone ?_)))
  cases isLocalDomain kwargs.recipientDomain with
  | error e => exact .error e
  | ok isLocal =>
    cases isLocal with
    | true => exact hdone
    | false =>
      -- nothing is made of what the library returns
      have hrun : ∀ f, Yields IsAction
          (if settings.wlRcptWithoutSpf then (done t).submit f else done t).result :=
        fun f => yields_ite hdone hdone
      exact yields_ite (yields_ite (hrun _) (hrun _)) (hrun _)

/-- It changes the tables. -/
theorem returnsAction (settings : Settings) (engine : LibGl.Engine)
    (isLocalDomain : Str → Except Exn Bool) : ReturnsAction (plugin settings engine isLocalDomain) := by
  intro kwargs t result t' hresult
  obtain ⟨hresult, -⟩ := Prod.mk.inj hresult
  have hyields := yields_restriction settings engine isLocalDomain kwargs t
  cases hrun : (restriction settings engine isLocalDomain kwargs t).result with
  | error e =>
    rw [hrun] at hresult
    cases hresult
  | ok action =>
    rw [hrun] at hresult
    exact ⟨action, (Except.ok.inj hresult).symm, hyields action hrun⟩

end WhitelistOutboundRecipient

/-! ### The modelers -/

variable [Unicode]

/-- The plugins of the SQL backends that only read. -/
def sqlReaders (settings : Settings) (serverHostname : Str)
    (login : RejectSenderLoginMismatch.Calls ω) (tables : ω → Except Exn AccountTables)
    (amavisd : AmavisdWblist.Calls ω) : List (Plugin ω) :=
  [rejectNullSender.toPlugin, (rejectToHostname settings serverHostname).toPlugin,
    RejectSenderLoginMismatch.plugin settings login, SqlMlAccessPolicy.plugin tables,
    SqlAliasAccessPolicy.plugin tables, AmavisdWblist.plugin settings amavisd]

/-- The plugins of the LDAP backend that only read. -/
def ldapReaders (settings : Settings) (serverHostname : Str)
    (login : RejectSenderLoginMismatch.Calls ω) (lists : LdapMaillistAccessPolicy.Calls ω)
    (amavisd : AmavisdWblist.Calls ω) : List (Plugin ω) :=
  [rejectNullSender.toPlugin, (rejectToHostname settings serverHostname).toPlugin,
    RejectSenderLoginMismatch.plugin settings login, LdapMaillistAccessPolicy.plugin lists,
    AmavisdWblist.plugin settings amavisd]

/-- **Whichever of them are enabled, and in whatever order, the reply is an action.** -/
theorem sqlHandleData_answers {settings : Settings} {serverHostname : Str}
    {login : RejectSenderLoginMismatch.Calls ω} {tables : ω → Except Exn AccountTables}
    {amavisd : AmavisdWblist.Calls ω} {plugins : List (Plugin ω)}
    (hplugins : plugins ⊆ sqlReaders settings serverHostname login tables amavisd) {s : Session}
    (hkeys : ∀ k ∈ ["protocol_state".toList, "sender_without_ext".toList,
      "recipient_without_ext".toList], s.get? k ≠ none) (w : ω) :
    ∃ action w', sqlHandleData plugins s w = (.ok action, w') ∧ action ≠ [] := by
  refine handleData_answers (fun p hp => ?_) hkeys w
  have hmem := hplugins hp
  unfold sqlReaders at hmem
  simp only [List.mem_cons, List.not_mem_nil, or_false] at hmem
  rcases hmem with rfl | rfl | rfl | rfl | rfl | rfl
  · exact returnsAction_rejectNullSender
  · exact returnsAction_rejectToHostname settings serverHostname
  · exact RejectSenderLoginMismatch.returnsAction settings login
  · exact SqlMlAccessPolicy.returnsAction tables
  · exact SqlAliasAccessPolicy.returnsAction tables
  · exact AmavisdWblist.returnsAction settings amavisd

/-- **On the LDAP backend, too**, whatever the searches for the accounts answer. -/
theorem ldapHandleData_answers (senderLdif recipientLdif : GetAccountLdif ω) {settings : Settings}
    {serverHostname : Str} {login : RejectSenderLoginMismatch.Calls ω}
    {lists : LdapMaillistAccessPolicy.Calls ω} {amavisd : AmavisdWblist.Calls ω}
    {plugins : List (Plugin ω)}
    (hplugins : plugins ⊆ ldapReaders settings serverHostname login lists amavisd) {s : Session}
    (hkeys : ∀ k ∈ ["protocol_state".toList, "sender_without_ext".toList,
      "recipient_without_ext".toList], s.get? k ≠ none) (w : ω) :
    ∃ action w', ldapHandleData senderLdif recipientLdif plugins s w = (.ok action, w') ∧
      action ≠ [] := by
  refine handleData_answers (fun p hp => ?_) hkeys w
  have hmem := hplugins hp
  unfold ldapReaders at hmem
  simp only [List.mem_cons, List.not_mem_nil, or_false] at hmem
  rcases hmem with rfl | rfl | rfl | rfl | rfl
  · exact returnsAction_rejectNullSender
  · exact returnsAction_rejectToHostname settings serverHostname
  · exact RejectSenderLoginMismatch.returnsAction settings login
  · exact LdapMaillistAccessPolicy.returnsAction lists
  · exact AmavisdWblist.returnsAction settings amavisd

end IRedAPD
