/-
  Alias senders of a mailbox, with the SQL backends and
  `ALLOWED_LOGIN_MISMATCH_STRICTLY` alone.

  What the strict branch accepts (`restriction_eq`) is a row of `forwardings`
  that the `LIKE` pattern built from the user name selects, or the same user
  under an alias domain.  A pattern without special characters selects the
  user's own addresses and no others; with one, some row of another user is
  selected too (`exists_selected`), so the law of the alias senders is the
  question whether the user name and the domain hold one
  (`bindsAliases_iff`).
-/
import IRedAPD.Equiv.Addresses
import IRedAPD.Plugins.RejectSenderLoginMismatch

namespace IRedAPD

open Py

variable [Unicode] {ω : Type*}

namespace RejectSenderLoginMismatch

/-- The strict check alone is switched on. -/
structure StrictOnly (settings : Settings) : Prop where
  strictly : settings.allowedLoginMismatchStrictly = true
  listMember : settings.allowedLoginMismatchListMember = false
  senders : settings.allowedLoginMismatchSenders = []

/-- The user `u@d` sends with a valid address other than `u@d`. -/
structure SendsAs (u d : Str) (kwargs : PluginKwargs) : Prop where
  saslUsername_eq : kwargs.saslUsername = u ++ '@' :: d
  saslUsernameDomain_eq : kwargs.saslUsernameDomain = d
  sender_valid : isEmail kwargs.senderWithoutExt = true
  sender_ne : kwargs.senderWithoutExt ≠ kwargs.saslUsername

/-- The address of the mailbox, with or without an extension. -/
def IsMailbox (u d address : Str) : Prop :=
  address = u ++ '@' :: d ∨ ∃ ext, address = u ++ '+' :: ext ++ '@' :: d

/-- The sender is an alias address of the mailbox, or the user under an alias domain. -/
def IsAliasSender (db : VmailTables) (sender u d : Str) : Prop :=
  (∃ r ∈ db.forwardings, r.address = sender ∧ r.isAlias = true ∧ IsMailbox u d r.forwarding) ∨
    ∃ a, (⟨a, d⟩ : AliasDomain) ∈ db.aliasDomains ∧ sender = u ++ '@' :: a

/-- The alias senders of `u@d` are bound to the mailbox: whatever the tables hold, its user may send
as one of them and as no one else. -/
def BindsAliases (w : ω) (u d : Str) : Prop :=
  ∀ (settings : Settings) (calls : Calls ω) (tables : ω → Except Exn VmailTables) (db : VmailTables)
    (kwargs : PluginKwargs), StrictOnly settings → calls.connVmail = .sql tables →
    tables w = .ok db → SendsAs u d kwargs →
    (restriction settings calls kwargs w = .ok SmtpActions.defaultAction ↔
      IsAliasSender db kwargs.senderWithoutExt u d)

/-- `LIKE` takes the characters of the user name and of the domain for themselves. -/
def PlainPattern (u d : Str) : Prop :=
  (∀ c ∈ u, c ≠ '%' ∧ c ≠ '_' ∧ c ≠ '\\') ∧ Sql.Literal d

/-! ### What the strict branch accepts -/

omit [Unicode] in
theorem hasAliasDomain_iff (db : VmailTables) (a d : Str) :
    hasAliasDomain db a d = true ↔ (⟨a, d⟩ : AliasDomain) ∈ db.aliasDomains := by
  unfold hasAliasDomain
  rw [List.any_eq_true]
  constructor
  · rintro ⟨⟨a', d'⟩, hr, heq⟩
    rw [Bool.and_eq_true, beq_iff_eq, beq_iff_eq] at heq
    obtain ⟨rfl, rfl⟩ := heq
    exact hr
  · intro h
    exact ⟨_, h, by simp⟩

omit [Unicode] in
/-- The sender and the user are told apart before the alias domain is looked up; under the user's
own domain that makes no difference. -/
theorem checkStrict_eq {tables : ω → Except Exn VmailTables} {db : VmailTables} {w : ω}
    (hdb : tables w = .ok db) {name domain u d : Str}
    (hne : name ++ '@' :: domain ≠ u ++ '@' :: d) :
    ∃ real, checkStrict tables (name ++ '@' :: domain) name domain (u ++ '@' :: d) u d w = .ok real ∧
      (real = none ↔ hasUserAlias db (name ++ '@' :: domain) (u ++ '@' :: d) u d = true ∨
        hasAliasDomain db domain d = true ∧ name = u) := by
  simp only [checkStrict, hdb, bind, Except.bind, pure, Except.pure]
  by_cases halias : hasUserAlias db (name ++ '@' :: domain) (u ++ '@' :: d) u d = true
  · rw [if_pos halias]
    exact ⟨none, rfl, by simp [halias]⟩
  rw [if_neg halias]
  by_cases hsame : domain = d
  · rw [if_pos hsame]
    have hname : name ≠ u := by
      rintro rfl
      exact hne (by rw [hsame])
    exact ⟨_, rfl, by simp [halias, hname]⟩
  rw [if_neg hsame]
  cases hdomain : hasAliasDomain db domain d with
  | false => exact ⟨_, rfl, by simp [halias]⟩
  | true =>
    simp only [Bool.not_true, Bool.false_eq_true, if_false]
    by_cases hname : name = u
    · rw [if_pos hname]
      exact ⟨none, rfl, by simp [hname]⟩
    · rw [if_neg hname]
      exact ⟨_, rfl, by simp [halias, hname]⟩

/-- **What the strict check accepts**, with the two queries as they are. -/
theorem restriction_eq {settings : Settings} {calls : Calls ω}
    {tables : ω → Except Exn VmailTables} {db : VmailTables} {kwargs : PluginKwargs} {w : ω}
    (hset : StrictOnly settings) (hconn : calls.connVmail = .sql tables) (hdb : tables w = .ok db)
    {u d : Str} (hu : '@' ∉ u) (hreq : SendsAs u d kwargs) :
    ∃ name domain, kwargs.senderWithoutExt = name ++ '@' :: domain ∧ '@' ∉ name ∧
      (restriction settings calls kwargs w = .ok SmtpActions.defaultAction ↔
        hasUserAlias db kwargs.senderWithoutExt (u ++ '@' :: d) u d = true ∨
          hasAliasDomain db domain d = true ∧ name = u) := by
  obtain ⟨name, c, domain, hsender, -, hname, -, -⟩ := exists_of_isEmail hreq.sender_valid
  refine ⟨name, c :: domain, hsender, hname, ?_⟩
  have hne : name ++ '@' :: (c :: domain) ≠ u ++ '@' :: d := by
    rw [← hsender, ← hreq.saslUsername_eq]
    exact hreq.sender_ne
  have hsasl : u ++ '@' :: d ≠ [] := by simp
  have hsplit : splitOnce "@".toList (name ++ '@' :: c :: domain) = some (name, c :: domain) :=
    splitOnce_append hname _
  have huser : splitFirst "@".toList (u ++ '@' :: d) = u := by
    have h : splitOnce "@".toList (u ++ '@' :: d) = some (u, d) := splitOnce_append hu d
    rw [splitFirst, h]
    rfl
  have hallowed : isAllowedSender settings (u ++ '@' :: d) d (c :: domain) = false := by
    simp [isAllowedSender, hset.senders]
  obtain ⟨real, hreal, hiff⟩ := checkStrict_eq hdb hne
  have hnil : name ++ '@' :: c :: domain ≠ [] := by simp
  -- with these settings nothing but the strict check decides
  have hresult : restriction settings calls kwargs w =
      .ok (if real = none then SmtpActions.defaultAction
        else SmtpActions.rejectSenderLoginMismatch) := by
    simp only [restriction, hsender, hnil, if_false, hsplit, bind, Except.bind, pure, Except.pure,
      and_false, hsasl, checkAuthenticated, hreq.saslUsername_eq, hreq.saslUsernameDomain_eq, hne,
      hset.strictly, Bool.not_true, Bool.and_false, Bool.false_and, hallowed, Bool.false_eq_true,
      lookupAccount, hconn, huser, Bool.true_or, lookupSql, hreal, if_true]
    cases real with
    | none => rfl
    | some real =>
      rw [hset.listMember]
      rfl
  rw [hresult, hsender, ← hiff]
  by_cases hnone : real = none
  · simp [hnone]
  · rw [if_neg hnone]
    constructor
    · intro h
      exact absurd (Except.ok.inj h) (by decide)
    · exact fun h => absurd h hnone

/-! ### The pattern -/

omit [Unicode] in
/-- The query for a user alias. -/
theorem hasUserAlias_iff (db : VmailTables) (sender saslUsername u d : Str) :
    hasUserAlias db sender saslUsername u d = true ↔
      ∃ r ∈ db.forwardings, r.address = sender ∧ r.isAlias = true ∧
        (r.forwarding = saslUsername ∨
          Sql.like (u ++ ('+' :: '%' :: '%' :: '@' :: d)) r.forwarding = true) := by
  have hpattern : u ++ "+%%@".toList ++ d = u ++ ('+' :: '%' :: '%' :: '@' :: d) := by
    rw [List.append_assoc]
    rfl
  unfold hasUserAlias
  rw [hpattern, List.any_eq_true]
  simp only [Bool.and_eq_true, Bool.or_eq_true, beq_iff_eq]
  constructor
  · rintro ⟨r, hr, ⟨haddress, hforwarding⟩, halias⟩
    exact ⟨r, hr, haddress, halias, hforwarding⟩
  · rintro ⟨r, hr, haddress, halias, hforwarding⟩
    exact ⟨r, hr, ⟨haddress, hforwarding⟩, halias⟩

omit [Unicode] in
/-- Without special characters the pattern selects the addresses with an extension. -/
theorem like_iff_of_plain {u d : Str} (h : PlainPattern u d) (address : Str) :
    Sql.like (u ++ ('+' :: '%' :: '%' :: '@' :: d)) address = true ↔
      ∃ ext, address = u ++ '+' :: ext ++ '@' :: d := by
  obtain ⟨huser, hdomain⟩ := h
  rw [Sql.like_append huser]
  simp only [Sql.like_cons (show '+' ≠ '%' by decide) (show '+' ≠ '_' by decide)
    (show '+' ≠ '\\' by decide), Sql.like_percent,
    Sql.like_cons (show '@' ≠ '%' by decide) (show '@' ≠ '_' by decide)
    (show '@' ≠ '\\' by decide), Sql.like_literal hdomain]
  constructor
  · rintro ⟨_, rfl, s, rfl, t, ⟨ext₁, rfl⟩, _, ⟨ext₂, rfl⟩, _, rfl, rfl⟩
    exact ⟨ext₁ ++ ext₂, by simp⟩
  · rintro ⟨ext, rfl⟩
    exact ⟨_, List.append_assoc .., _, rfl, _, ⟨ext, rfl⟩, _, List.suffix_refl _, d, rfl, rfl⟩

omit [Unicode] in
/-- A special character in the user name lets another user name in. -/
theorem exists_selected_of_user {u d : Str} (h : ¬ ∀ c ∈ u, c ≠ '%' ∧ c ≠ '_' ∧ c ≠ '\\') :
    ∃ address, Sql.like (u ++ ('+' :: '%' :: '%' :: '@' :: d)) address = true ∧
      ¬ IsMailbox u d address := by
  have hliteral : ¬ Sql.Literal (u ++ ['+']) := by
    rintro ⟨hplain, hlast⟩
    rw [List.dropLast_concat] at hlast
    refine h fun c hc => ⟨(hplain c (by simp [hc])).1, (hplain c (by simp [hc])).2, ?_⟩
    rintro rfl
    exact hlast hc
  obtain ⟨p₁, p₂, hsplit, hplain, hspecial⟩ := Sql.exists_special hliteral
  -- the special character stands before the `+`
  obtain ⟨v, rfl, rfl⟩ : ∃ v, u = p₁ ++ v ∧ p₂ = v ++ ['+'] := by
    rcases List.eq_nil_or_concat p₂ with rfl | ⟨v, e, rfl⟩
    · exact hspecial.elim
    · rw [List.concat_eq_append, ← List.append_assoc] at hsplit
      obtain ⟨hu, he⟩ := List.append_inj' hsplit rfl
      exact ⟨v, hu, by rw [List.concat_eq_append, he]⟩
  obtain ⟨c, v, rfl⟩ : ∃ c v', v = c :: v' := by
    cases v with
    | nil => exact absurd hspecial (by simp [Sql.Special])
    | cons c v => exact ⟨c, v, rfl⟩
  obtain ⟨t, ht, -, -, hdiff⟩ := Sql.exists_like (c :: v ++ ('+' :: '%' :: '%' :: '@' :: d))
  have hspecial' : Sql.Special (c :: v ++ ('+' :: '%' :: '%' :: '@' :: d)) :=
    hspecial.imp_right fun h => h.imp_right fun h => ⟨h.1, by simp⟩
  refine ⟨p₁ ++ t, ?_, fun hmail => ?_⟩
  · rw [List.append_assoc, Sql.like_append hplain]
    exact ⟨t, rfl, ht⟩
  · -- an address of the mailbox goes on as the user name does
    obtain ⟨e, s, he, ht'⟩ : ∃ e s, e ≠ '\\' ∧ t = c :: v ++ e :: s := by
      rcases hmail with hmail | ⟨ext, hmail⟩
      · refine ⟨'@', d, by decide, ?_⟩
        rwa [List.append_assoc, List.append_cancel_left_eq] at hmail
      · refine ⟨'+', ext ++ '@' :: d, by decide, ?_⟩
        rwa [List.append_assoc, List.append_assoc, List.append_cancel_left_eq] at hmail
    rcases hdiff hspecial' with hhead | hback
    · exact hhead (by rw [ht']; rfl)
    · rw [ht', Sql.backslashes_append_cons he, Sql.backslashes_append_cons (by decide)] at hback
      exact lt_irrefl _ hback

omit [Unicode] in
/-- With one it selects an address of someone else. -/
theorem exists_selected {u d : Str} (h : ¬ PlainPattern u d) :
    ∃ address, Sql.like (u ++ ('+' :: '%' :: '%' :: '@' :: d)) address = true ∧
      ¬ IsMailbox u d address := by
  by_cases huser : ∀ c ∈ u, c ≠ '%' ∧ c ≠ '_' ∧ c ≠ '\\'
  · obtain ⟨d₁, d₂, rfl, hplain, hspecial⟩ := Sql.exists_special fun hd => h ⟨huser, hd⟩
    obtain ⟨t, ht, hlen, -, hdiff⟩ := Sql.exists_like d₂
    have hdomain : Sql.like (d₁ ++ d₂) (d₁ ++ t) = true := (Sql.like_append hplain).mpr ⟨t, rfl, ht⟩
    refine ⟨u ++ '+' :: '@' :: (d₁ ++ t), ?_, ?_⟩
    · rw [Sql.like_append huser]
      refine ⟨_, rfl, ?_⟩
      rw [Sql.like_cons (by decide) (by decide) (by decide)]
      refine ⟨_, rfl, Sql.like_percent.mpr ⟨_, List.suffix_refl _, ?_⟩⟩
      refine Sql.like_percent.mpr ⟨_, List.suffix_refl _, ?_⟩
      rw [Sql.like_cons (by decide) (by decide) (by decide)]
      exact ⟨_, rfl, hdomain⟩
    · rintro (hmail | ⟨ext, hmail⟩)
      · rw [List.append_cancel_left_eq] at hmail
        exact absurd (List.cons.inj hmail).1 (by decide)
      · -- the domain is at the end, and what stands for it is no longer
        rw [List.append_assoc, List.append_cancel_left_eq] at hmail
        have hrest : '@' :: (d₁ ++ t) = ext ++ '@' :: (d₁ ++ d₂) := (List.cons.inj hmail).2
        have hext : ext = [] := by
          have hl := congrArg List.length hrest
          simp only [List.length_cons, List.length_append] at hl
          exact List.eq_nil_of_length_eq_zero (by omega)
        rw [hext, List.nil_append] at hrest
        have heq : t = d₂ := List.append_cancel_left (List.cons.inj hrest).2
        rcases hdiff hspecial with hhead | hback
        · exact hhead (by rw [heq])
        · rw [heq] at hback
          exact lt_irrefl _ hback
  · exact exists_selected_of_user huser

/-! ### The law -/

/-- A valid sender with a user name of its own. -/
theorem exists_sender (u : Str) : ∃ name domain, isEmail (name ++ '@' :: domain) = true ∧ name ≠ u ∧
    '@' ∉ name := by
  by_cases hu : u = "a".toList
  · refine ⟨"b".toList, "b.cd".toList, ?_, ?_, by decide⟩
    · rw [isEmail_ascii (by decide)]
      decide
    · rw [hu]
      decide
  · refine ⟨"a".toList, "b.cd".toList, ?_, Ne.symm hu, by decide⟩
    rw [isEmail_ascii (by decide)]
    decide

/-- **The alias senders of `u@d` are bound to the mailbox** exactly when `LIKE` takes every
character of `u` and `d` for itself. -/
theorem bindsAliases_iff (w : ω) {u d : Str} (hu : '@' ∉ u) : BindsAliases w u d ↔ PlainPattern u d := by
  constructor
  · intro hbinds
    by_contra hplain
    obtain ⟨address, hlike, hother⟩ := exists_selected hplain
    obtain ⟨name, domain, hvalid, hname, hat⟩ := exists_sender u
    let db : VmailTables := ⟨[⟨name ++ '@' :: domain, address, true, false, true⟩], [], []⟩
    let calls : Calls ω := ⟨.sql fun _ => .ok db, fun _ _ => .ok false, fun _ _ _ => .ok false,
      fun _ _ => .ok false⟩
    let kwargs : PluginKwargs :=
      { smtpSessionData := []
        sender := name ++ '@' :: domain
        senderWithoutExt := name ++ '@' :: domain
        recipient := []
        recipientWithoutExt := []
        clientAddress := []
        senderDomain := domain
        recipientDomain := []
        saslUsername := u ++ '@' :: d
        saslUsernameDomain := d }
    have hset : StrictOnly {} := ⟨rfl, rfl, rfl⟩
    have hne : name ++ '@' :: domain ≠ u ++ '@' :: d := by
      exact fun heq => hname (append_cons_inj hat hu heq).1
    have hreq : SendsAs u d kwargs := ⟨rfl, rfl, hvalid, hne⟩
    have hconn : calls.connVmail = .sql _ := rfl
    obtain ⟨_, _, _, _, hiff⟩ := restriction_eq hset hconn rfl (w := w) hu hreq
    have haccepts := hiff.mpr (.inl ((hasUserAlias_iff db _ _ u d).mpr
      ⟨_, List.mem_singleton_self _, rfl, rfl, .inr hlike⟩))
    -- the only row is another user's
    rcases (hbinds _ calls _ db kwargs hset rfl rfl hreq).mp haccepts with ⟨r, hr, -, -, hmail⟩ | h
    · rw [List.mem_singleton.mp hr] at hmail
      exact hother hmail
    · obtain ⟨a, ha, -⟩ := h
      cases ha
  · intro hplain settings calls tables db kwargs hset hconn hdb hreq
    obtain ⟨name, domain, hsender, hat, hiff⟩ := restriction_eq hset hconn hdb hu hreq
    rw [hiff, hasUserAlias_iff, IsAliasSender, hasAliasDomain_iff]
    simp only [IsMailbox, like_iff_of_plain hplain]
    refine or_congr_right ⟨?_, ?_⟩
    · rintro ⟨hdomain, rfl⟩
      exact ⟨domain, hdomain, hsender⟩
    · rintro ⟨a, ha, heq⟩
      rw [hsender] at heq
      obtain ⟨hname, hdomain⟩ := append_cons_inj hat hu heq
      exact ⟨hdomain ▸ ha, hname⟩

omit [Unicode] in
/-- A user name with letters and a dot only. -/
theorem bindsAliases_john_doe :
    letI := asciiUnicode
    BindsAliases () "john.doe".toList "b.cd".toList := by
  let := asciiUnicode
  refine (bindsAliases_iff () (by decide)).mpr ⟨?_, ?_, by decide⟩
  · simp
  · simp

omit [Unicode] in
/-- `john_doe@b.cd` may send as an alias address of `john.doe+x@b.cd`. -/
theorem alias_of_other_accepted :
    letI := asciiUnicode
    ¬ BindsAliases () "john_doe".toList "b.cd".toList := by
  let := asciiUnicode
  intro hbinds
  let db : VmailTables := ⟨[⟨"boss@b.cd", "john.doe+x@b.cd", true, false, true⟩], [], []⟩
  let calls : Calls Unit := ⟨.sql fun _ => .ok db, fun _ _ => .ok false, fun _ _ _ => .ok false,
    fun _ _ => .ok false⟩
  let kwargs : PluginKwargs :=
    { smtpSessionData := []
      sender := "boss@b.cd"
      senderWithoutExt := "boss@b.cd"
      recipient := "c@d.ef"
      recipientWithoutExt := "c@d.ef"
      clientAddress := "1.2.3.4"
      senderDomain := "b.cd"
      recipientDomain := "d.ef"
      saslUsername := "john_doe@b.cd"
      saslUsernameDomain := "b.cd" }
  have hreq : SendsAs "john_doe".toList "b.cd".toList kwargs := ⟨rfl, rfl, by decide, by decide⟩
  have hiff := hbinds {} calls _ db kwargs ⟨rfl, rfl, rfl⟩ rfl rfl hreq
  rcases hiff.mp (by decide) with ⟨r, hr, -, -, hmail⟩ | ⟨a, ha, -⟩
  · rw [List.mem_singleton.mp hr] at hmail
    rcases hmail with hmail | ⟨ext, hmail⟩
    · exact absurd hmail (by decide)
    · exact absurd (congrArg (List.take 5) hmail) (by simp)
  · cases ha

end RejectSenderLoginMismatch

end IRedAPD
