/-
  What the reading plugin makes of the whitelists the writing plugin asks for.

  A run submits a pair of account and sender for each option (`restriction_eq`).
  The library drops a pair it finds invalid, and the reader asks for addresses
  without extension: a later message is whitelisted exactly when a pair is
  accepted and one of those asked for (`whitelists_iff`).
-/
import IRedAPD.Equiv.Libs.Greylisting
import IRedAPD.Plugins.WhitelistOutboundRecipient

namespace IRedAPD.WhitelistOutboundRecipient

open Py Greylisting LibGl

variable [Unicode]

/-! ### The pairs a run submits -/

/-- The rows a run submits. -/
def submitted (settings : Settings) (kwargs : PluginKwargs) : List WhitelistRow :=
  (if settings.wlRcptWithoutSpf then
    [⟨{ account := wlAccount settings kwargs, sender := wlSender settings kwargs }, []⟩] else []) ++
  (if settings.wlRcptForGreylisting then
    [⟨{ account := kwargs.saslUsername, sender := kwargs.recipient }, "AUTO-WHITELISTED"⟩] else [])

/-- A row is submitted. -/
def submitRow (engine : Engine) (run : Run) (r : WhitelistRow) : Run :=
  run.submit (addWhitelistSender engine r.account r.sender r.comment)

/-- A run submits its rows in turn. -/
theorem restriction_eq {settings : Settings} {isLocalDomain : Str → Except Exn Bool}
    {kwargs : PluginKwargs} (engine : Engine) (t : Tables)
    (hdomain : settings.wlRcptWhitelistDomainForGreylisting = false)
    (hauth : kwargs.saslUsername ≠ []) (hemail : isEmail kwargs.recipient = true)
    (hexternal : kwargs.saslUsernameDomain ≠ kwargs.recipientDomain)
    (hlocal : isLocalDomain kwargs.recipientDomain = .ok false) :
    restriction settings engine isLocalDomain kwargs t =
      (submitted settings kwargs).foldl (submitRow engine) (done t) := by
  unfold restriction submitted
  simp only [hauth, hemail, hexternal, hlocal, hdomain, if_false, Bool.not_true, Bool.false_eq_true]
  cases settings.wlRcptForGreylisting <;> cases settings.wlRcptWithoutSpf <;> rfl

/-- The library accepts the row. -/
def Accepted (r : WhitelistRow) : Prop :=
  isValidSender r.sender = true ∧
    (isValidAmavisdAddress r.account).any [.catchall, .domain, .subdomain, .email].contains = true

/-- The texts of the row stand for themselves. -/
def Plain (r : WhitelistRow) : Prop := statements.IsPlain (.insertWhitelist r)

theorem addWhitelistSender_of_not_accepted (engine : Engine) {r : WhitelistRow} (h : ¬Accepted r)
    (t : Tables) : addWhitelistSender engine r.account r.sender r.comment t =
      (.error "INVALID_SENDER".toList, t) ∨
    addWhitelistSender engine r.account r.sender r.comment t = (.error "INVALID_ACCOUNT".toList, t) := by
  unfold addWhitelistSender
  by_cases hsender : isValidSender r.sender = true
  · refine .inr ?_
    have haccount : ¬(isValidAmavisdAddress r.account).any
        [.catchall, .domain, .subdomain, .email].contains = true := fun haccount => h ⟨hsender, haccount⟩
    rw [hsender, if_neg (by simp), if_pos (by simpa using haccount)]
  · refine .inl ?_
    rw [if_pos (by simpa using hsender)]

theorem addWhitelistSender_of_accepted (engine : Engine) {r : WhitelistRow} (h : Accepted r)
    (t : Tables) : addWhitelistSender engine r.account r.sender r.comment t =
      passDuplicate (execute engine (.insertWhitelist r) t) := by
  unfold addWhitelistSender
  rw [h.1, h.2, if_neg (by simp), if_neg (by simp)]

/-- An accepted row with plain texts is in the table afterwards, with the rows that were there. -/
theorem addWhitelistSender_of_plain (engine : Engine) {r : WhitelistRow} (h : Accepted r)
    (hplain : Plain r) (t : Tables) :
    (addWhitelistSender engine r.account r.sender r.comment t).1 = .ok () ∧
    t.whitelists.rows ⊆
      (addWhitelistSender engine r.account r.sender r.comment t).2.whitelists.rows ∧
    (∃ row ∈ (addWhitelistSender engine r.account r.sender r.comment t).2.whitelists.rows,
      row.2.key = r.key) ∧
    ((addWhitelistSender engine r.account r.sender r.comment t).2 = t ∨
      ∃ w, t.whitelists.insert r = some w ∧
        (addWhitelistSender engine r.account r.sender r.comment t).2 = { t with whitelists := w }) := by
  rw [addWhitelistSender_of_accepted engine h]
  cases hinsert : t.whitelists.insert r with
  | some w =>
    have heffect : statements.effect (.insertWhitelist r) t = some { t with whitelists := w } := by
      show (t.whitelists.insert r).map _ = _
      rw [hinsert]
      rfl
    rw [execute_of_plain engine hplain heffect]
    refine ⟨rfl, ?_, ⟨(t.whitelists.nextId, r), ?_, rfl⟩, .inr ⟨w, rfl, rfl⟩⟩
    · exact fun row hrow => (Sql.Table.mem_rows_insert hinsert).mpr (.inl hrow)
    · exact (Sql.Table.mem_rows_insert hinsert).mpr (.inr rfl)
  | none =>
    have heffect : statements.effect (.insertWhitelist r) t = none := by
      show (t.whitelists.insert r).map _ = _
      rw [hinsert]
      rfl
    obtain ⟨e, he, hdup⟩ := engine.exec_of_duplicate hplain heffect
    have hexecute : execute engine (.insertWhitelist r) t = (.error e, t) := by
      unfold execute
      rw [he]
    rw [hexecute]
    have hpass : passDuplicate (.error e, t) = (.ok (), t) := if_pos hdup
    rw [hpass]
    refine ⟨rfl, List.Subset.refl _, ?_, .inl rfl⟩
    obtain ⟨row, hrow⟩ := Option.ne_none_iff_exists'.mp (Sql.Table.insert_eq_none_iff.mp hinsert)
    exact ⟨row, (Sql.Table.find?_eq_some_iff.mp hrow).1, (Sql.Table.find?_eq_some_iff.mp hrow).2⟩

/-- A domain without `@` is no account. -/
theorem not_accepted_of_account {r : WhitelistRow} (h : '@' ∉ r.account) : ¬Accepted r := by
  rintro ⟨-, haccount⟩
  cases ht : isValidAmavisdAddress r.account with
  | none =>
    rw [ht] at haccount
    cases haccount
  | some t =>
    rw [ht] at haccount
    rcases type_of_at_notMem h ht with rfl | rfl | rfl | rfl <;> cases haccount

/-! ### What the reader asks for -/

/-- The library refused rows as invalid at most. -/
def NoSqlError (run : Run) : Prop :=
  ∀ e, .error e ∈ run.log → e = "INVALID_SENDER".toList ∨ e = "INVALID_ACCOUNT".toList

/-- After the run, a message from its recipient to its user is whitelisted whatever its client. -/
def Whitelists (settings : Settings) (env : Env) (isLocalDomain : Str → Except Exn Bool)
    (kwargs : PluginKwargs) : Prop :=
  ∀ (engine : Engine) (t : Tables), NoSqlError (restriction settings engine isLocalDomain kwargs t) →
    ∀ c : Client, c.recipient = stripMailExtAddress settings kwargs.saslUsername →
      c.sender = stripMailExtAddress settings kwargs.recipient →
      isWhitelisted ((restriction settings engine isLocalDomain kwargs t).tables.env env)
        (policySenders c.sender c.clientAddress) (policyRecipients c.recipient c.target)
        c.clientAddress c.ip = .ok true

/-- A message from the recipient to the user asks for the row. -/
def Asked (settings : Settings) (kwargs : PluginKwargs) (r : WhitelistRow) : Prop :=
  r.account ∈ getPolicyAddressesFromEmail (stripMailExtAddress settings kwargs.saslUsername) ∧
    Unicode.lower r.sender ∈
      getPolicyAddressesFromEmail (stripMailExtAddress settings kwargs.recipient)

/-- A row of the list is accepted and stored as it is, and nothing accepted after it is read in
another way. -/
def Stored (rs : List WhitelistRow) (r : WhitelistRow) : Prop :=
  ∃ pre post, rs = pre ++ r :: post ∧ Accepted r ∧ Plain r ∧ ∀ r' ∈ post, Accepted r' → Plain r'

/-- A row that is stored is asked for. -/
def TakesEffect (settings : Settings) (kwargs : PluginKwargs) : Prop :=
  ∃ r, Stored (submitted settings kwargs) r ∧ Asked settings kwargs r

/-- Rows that are stored as they are leave the others alone. -/
theorem rows_subset_foldl (engine : Engine) {rs : List WhitelistRow}
    (h : ∀ r ∈ rs, Accepted r → Plain r) (run : Run) :
    run.tables.whitelists.rows ⊆ (rs.foldl (submitRow engine) run).tables.whitelists.rows := by
  induction rs generalizing run with
  | nil => exact List.Subset.refl _
  | cons r rs ih =>
    have hrest := ih (fun r' hr' => h r' (List.mem_cons_of_mem _ hr')) (submitRow engine run r)
    refine List.Subset.trans ?_ hrest
    show run.tables.whitelists.rows ⊆
      (addWhitelistSender engine r.account r.sender r.comment run.tables).2.whitelists.rows
    by_cases haccepted : Accepted r
    · exact (addWhitelistSender_of_plain engine haccepted (h r (List.mem_cons_self ..) haccepted) _).2.1
    · rcases addWhitelistSender_of_not_accepted engine haccepted run.tables with heq | heq <;>
        (rw [heq]; exact List.Subset.refl _)

/-- A stored row that is asked for whitelists. -/
theorem isWhitelisted_of_mem {env : Env} {t : Tables} {c : Client} {row : ℕ × WhitelistRow}
    (hdomainSpf : env.fails .selectWhitelistDomainSpf = false)
    (hwhitelists : env.fails .selectWhitelists = false) (hrow : row ∈ t.whitelists.rows)
    (haccount : row.2.account ∈ getPolicyAddressesFromEmail c.recipient)
    (hsender : Unicode.lower row.2.sender ∈ getPolicyAddressesFromEmail c.sender) :
    isWhitelisted (t.env env) (policySenders c.sender c.clientAddress)
      (policyRecipients c.recipient c.target) c.clientAddress c.ip = .ok true := by
  have hlisted : isListed (policySenders c.sender c.clientAddress) c.clientAddress
      (whitelistsOf (t.env env).whitelists (policyRecipients c.recipient c.target)) = true := by
    have hmem : Unicode.lower row.2.sender ∈
        whitelistsOf (t.env env).whitelists (policyRecipients c.recipient c.target) := by
      refine List.mem_map.mpr ⟨row.2.toWhitelist, List.mem_filter.mpr ⟨?_, ?_⟩, rfl⟩
      · exact List.mem_map.mpr ⟨row, hrow, rfl⟩
      · exact List.contains_iff_mem.mpr (List.mem_append_left _ haccount)
    have hpolicy : Unicode.lower row.2.sender ∈ policySenders c.sender c.clientAddress :=
      List.mem_append_left _ (List.mem_append_left _ hsender)
    unfold isListed
    rw [Bool.or_eq_true, List.any_eq_true]
    exact .inr ⟨_, hpolicy, List.contains_iff_mem.mpr hmem⟩
  unfold isWhitelisted
  simp only
  rw [show (t.env env).fails .selectWhitelistDomainSpf = false from hdomainSpf,
    show (t.env env).fails .selectWhitelists = false from hwhitelists,
    if_neg Bool.false_ne_true, if_neg Bool.false_ne_true, if_pos hlisted]
  split_ifs <;> rfl

theorem whitelists_of_takesEffect {settings : Settings} {env : Env}
    {isLocalDomain : Str → Except Exn Bool} {kwargs : PluginKwargs}
    (hdomainSpf : env.fails .selectWhitelistDomainSpf = false)
    (hwhitelists : env.fails .selectWhitelists = false)
    (heq : ∀ engine t, restriction settings engine isLocalDomain kwargs t =
      (submitted settings kwargs).foldl (submitRow engine) (done t))
    (h : TakesEffect settings kwargs) : Whitelists settings env isLocalDomain kwargs := by
  obtain ⟨r, ⟨pre, post, hsubmitted, haccepted, hplain, hpost⟩, hasked⟩ := h
  intro engine t _ c hrecipient hsender
  rw [heq, hsubmitted, List.foldl_append, List.foldl_cons]
  set run := pre.foldl (submitRow engine) (done t)
  obtain ⟨row, hrow, hkey⟩ :=
    (addWhitelistSender_of_plain engine haccepted hplain run.tables).2.2.1
  have hfinal := rows_subset_foldl engine hpost (submitRow engine run r) hrow
  refine isWhitelisted_of_mem hdomainSpf hwhitelists hfinal ?_ ?_
  · rw [(Prod.mk.inj hkey).1, hrecipient]
    exact hasked.1
  · rw [(Prod.mk.inj hkey).2, hsender]
    exact hasked.2

/-! ### A database that forgets -/

/-- A database where every other statement empties the table. -/
def wipingEngine : Engine :=
  Sql.Engine.withOther statements (fun t => .ok { t with whitelists := Sql.Table.empty })
    "duplicate key" isDuplicate_duplicateKey

/-- What such a database holds after a run on empty tables. -/
structure Wiped (rs : List WhitelistRow) (run : Run) : Prop where
  stored : ∀ row ∈ run.tables.whitelists.rows, Stored rs row.2
  length_le : run.tables.whitelists.rows.length ≤ rs.length
  domainSpf : run.tables.whitelistDomainSpf.rows = []
  noSqlError : NoSqlError run

theorem stored_append_self (rs : List WhitelistRow) {r : WhitelistRow} (haccepted : Accepted r)
    (hplain : Plain r) : Stored (rs ++ [r]) r :=
  ⟨rs, [], rfl, haccepted, hplain, fun r' hr' => by cases hr'⟩

theorem Stored.append {rs : List WhitelistRow} {x r : WhitelistRow} (h : Stored rs x)
    (hr : Accepted r → Plain r) : Stored (rs ++ [r]) x := by
  obtain ⟨pre, post, rfl, haccepted, hplain, hpost⟩ := h
  refine ⟨pre, post ++ [r], by rw [List.append_assoc, List.cons_append], haccepted, hplain, ?_⟩
  intro r' hr'
  rcases List.mem_append.mp hr' with hmem | hmem
  · exact hpost r' hmem
  · rw [List.mem_singleton.mp hmem]
    exact hr

/-- The fields of a run after one more call of the library. -/
theorem Wiped.of_eq {rs rs' : List WhitelistRow} {run : Run} (h : Wiped rs run)
    {f : Tables → Except Str Unit × Tables} {qr : Except Str Unit} {t : Tables}
    (hf : f run.tables = (qr, t)) (hspf : t.whitelistDomainSpf = run.tables.whitelistDomainSpf)
    (hstored : ∀ row ∈ t.whitelists.rows, Stored rs' row.2)
    (hlength : t.whitelists.rows.length ≤ rs'.length)
    (hqr : ∀ e, qr = .error e → e = "INVALID_SENDER".toList ∨ e = "INVALID_ACCOUNT".toList) :
    Wiped rs' (run.submit f) := by
  have hsubmit : run.submit f = { run with log := run.log ++ [qr], tables := t } := by
    unfold Run.submit
    rw [hf]
  rw [hsubmit]
  refine ⟨hstored, hlength, ?_, ?_⟩
  · show t.whitelistDomainSpf.rows = []
    rw [hspf]
    exact h.domainSpf
  · intro e he
    rcases List.mem_append.mp he with hmem | hmem
    · exact h.noSqlError e hmem
    · exact hqr e (List.mem_singleton.mp hmem).symm

/-- One more row. -/
theorem Wiped.submit {rs : List WhitelistRow} {run : Run} (h : Wiped rs run) (r : WhitelistRow) :
    Wiped (rs ++ [r]) (submitRow wipingEngine run r) := by
  have hlength : rs.length ≤ (rs ++ [r]).length := by
    rw [List.length_append]
    exact Nat.le_add_right _ _
  by_cases haccepted : Accepted r
  · by_cases hplain : Plain r
    · obtain ⟨hok, -, -, htables⟩ :=
        addWhitelistSender_of_plain wipingEngine haccepted hplain run.tables
      rcases htables with htables | ⟨w, hw, htables⟩
      · -- the row is there already
        refine h.of_eq (Prod.ext hok htables) rfl ?_ (h.length_le.trans hlength) ?_
        · exact fun row hrow => (h.stored row hrow).append fun _ => hplain
        · intro e he
          cases he
      · refine h.of_eq (Prod.ext hok htables) rfl ?_ ?_ ?_
        · intro row hrow
          rcases (Sql.Table.mem_rows_insert hw).mp hrow with hold | rfl
          · exact (h.stored row hold).append fun _ => hplain
          · exact stored_append_self rs haccepted hplain
        · show w.rows.length ≤ _
          rw [Sql.Table.rows_insert hw, List.length_append, List.length_append]
          exact Nat.add_le_add_right h.length_le 1
        · intro e he
          cases he
    · -- nothing is left
      have hwiped : addWhitelistSender wipingEngine r.account r.sender r.comment run.tables =
          (.ok (), { run.tables with whitelists := Sql.Table.empty }) := by
        have hexec : wipingEngine.exec (.insertWhitelist r) run.tables =
            .ok { run.tables with whitelists := Sql.Table.empty } := if_neg hplain
        rw [addWhitelistSender_of_accepted wipingEngine haccepted]
        unfold execute
        rw [hexec]
        rfl
      refine h.of_eq hwiped rfl ?_ (Nat.zero_le _) ?_
      · intro row hrow
        cases hrow
      · intro e he
        cases he
  · -- the library refuses the row
    have hkept : ∀ row ∈ run.tables.whitelists.rows, Stored (rs ++ [r]) row.2 :=
      fun row hrow => (h.stored row hrow).append fun hr => absurd hr haccepted
    rcases addWhitelistSender_of_not_accepted wipingEngine haccepted run.tables with heq | heq
    · exact h.of_eq heq rfl hkept (h.length_le.trans hlength) fun e he => .inl (Except.error.inj he).symm
    · exact h.of_eq heq rfl hkept (h.length_le.trans hlength) fun e he => .inr (Except.error.inj he).symm

/-- A run on empty tables. -/
theorem wiped (rs : List WhitelistRow) : Wiped rs (rs.foldl (submitRow wipingEngine) (done {})) := by
  induction rs using List.reverseRecOn with
  | nil =>
    refine ⟨?_, Nat.le_refl _, rfl, ?_⟩
    · intro row hrow
      cases hrow
    · intro e he
      cases he
  | append_singleton rs r ih =>
    rw [List.foldl_append, List.foldl_cons, List.foldl_nil]
    exact ih.submit r

/-! ### When whitelisting takes effect -/

/-- A client with an IPv6 address `k::1` is whitelisted for its sender or by a row that begins as its
address does. -/
theorem exists_row_of_isWhitelisted {env : Env} {t : Tables} {c : Client} {k : Char}
    (hdomainSpf : env.fails .selectWhitelistDomainSpf = false)
    (hwhitelists : env.fails .selectWhitelists = false) (hempty : t.whitelistDomainSpf.rows = [])
    (htarget : c.target = none) (haddress : c.clientAddress = k :: "::1".toList)
    (hipv4 : isIpv4 c.clientAddress = false) (hip : c.ip.version = .v6)
    (hfirst : splitFirst ":" c.clientAddress = [k])
    (h : isWhitelisted (t.env env) (policySenders c.sender c.clientAddress)
      (policyRecipients c.recipient c.target) c.clientAddress c.ip = .ok true) :
    ∃ row ∈ t.whitelists.rows, row.2.account ∈ getPolicyAddressesFromEmail c.recipient ∧
      (Unicode.lower row.2.sender ∈ getPolicyAddressesFromEmail c.sender ∨
        (Unicode.lower row.2.sender).head? = some k) := by
  set wls := whitelistsOf (t.env env).whitelists (policyRecipients c.recipient c.target) with hwls
  have hnone : whitelistsOf (t.env env).whitelistDomainSpf
      (policyRecipients c.recipient c.target) = [] := by
    show whitelistsOf (t.whitelistDomainSpf.rows.map _) _ = []
    rw [hempty]
    rfl
  -- the entry that matches
  have hentry : ∃ x ∈ wls, x ∈ getPolicyAddressesFromEmail c.sender ∨ x.head? = some k := by
    unfold isWhitelisted at h
    simp only at h
    rw [show (t.env env).fails .selectWhitelistDomainSpf = false from hdomainSpf,
      show (t.env env).fails .selectWhitelists = false from hwhitelists,
      if_neg Bool.false_ne_true, if_neg Bool.false_ne_true, hnone, ← hwls, List.nil_append] at h
    have hnothing : isListed (policySenders c.sender c.clientAddress) c.clientAddress [] = false := by
      simp [isListed]
    rw [hnothing, if_neg Bool.false_ne_true] at h
    by_cases hlisted : isListed (policySenders c.sender c.clientAddress) c.clientAddress wls = true
    · unfold isListed at hlisted
      rw [Bool.or_eq_true, List.any_eq_true] at hlisted
      rcases hlisted with hclient | ⟨x, hx, hmem⟩
      · refine ⟨_, List.contains_iff_mem.mp hclient, .inr ?_⟩
        rw [haddress]
        rfl
      · refine ⟨x, List.contains_iff_mem.mp hmem, ?_⟩
        unfold policySenders at hx
        rw [hipv4, if_neg Bool.false_ne_true, List.append_nil, List.mem_append,
          List.mem_singleton] at hx
        rcases hx with hx | rfl
        · exact .inl hx
        · rw [haddress]
          exact .inr rfl
    · rw [if_neg hlisted] at h
      obtain ⟨x, hx, -⟩ := List.any_eq_true.mp (Except.ok.inj h)
      unfold cidrs at hx
      rw [hip] at hx
      obtain ⟨hmem, hprefix⟩ := List.mem_filter.mp hx
      rw [Bool.and_eq_true, startsWith_iff, hfirst] at hprefix
      obtain ⟨s, rfl⟩ := hprefix.1
      exact ⟨_, hmem, .inr rfl⟩
  obtain ⟨x, hx, hmatch⟩ := hentry
  obtain ⟨w, hw, rfl⟩ := List.mem_map.mp hx
  obtain ⟨hwhitelist, haccount⟩ := List.mem_filter.mp hw
  obtain ⟨row, hrow, rfl⟩ := List.mem_map.mp hwhitelist
  refine ⟨row, hrow, ?_, hmatch⟩
  rw [List.contains_iff_mem, htarget] at haccount
  simpa [policyRecipients] using haccount

/-- A message from `k::1`. -/
def stranger (settings : Settings) (kwargs : PluginKwargs) (k : Char) (ip : IpAddress)
    (hip : ipAddress (k :: "::1".toList) = some ip) : Client where
  recipient := stripMailExtAddress settings kwargs.saslUsername
  target := none
  sender := stripMailExtAddress settings kwargs.recipient
  clientAddress := k :: "::1".toList
  ip := ip
  ip_eq := hip

omit [Unicode] in
theorem length_submitted_le (settings : Settings) (kwargs : PluginKwargs) :
    (submitted settings kwargs).length ≤ 2 := by
  unfold submitted
  split_ifs <;> simp

theorem takesEffect_of_whitelists {settings : Settings} {env : Env}
    {isLocalDomain : Str → Except Exn Bool} {kwargs : PluginKwargs}
    (hdomainSpf : env.fails .selectWhitelistDomainSpf = false)
    (hwhitelists : env.fails .selectWhitelists = false)
    (heq : ∀ engine t, restriction settings engine isLocalDomain kwargs t =
      (submitted settings kwargs).foldl (submitRow engine) (done t))
    (h : Whitelists settings env isLocalDomain kwargs) : TakesEffect settings kwargs := by
  by_contra hno
  have hwiped := wiped (submitted settings kwargs)
  have hrun := h wipingEngine {}
  rw [heq] at hrun
  set run := (submitted settings kwargs).foldl (submitRow wipingEngine) (done {})
  replace hrun := hrun hwiped.noSqlError
  -- a row for each of three clients, but there are two at most
  have hrow : ∀ k ip, (hip : ipAddress (k :: "::1".toList) = some ip) → ip.version = .v6 →
      isIpv4 (k :: "::1".toList) = false → splitFirst ":" (k :: "::1".toList) = [k] →
      some k ∈ run.tables.whitelists.rows.map fun row => (Unicode.lower row.2.sender).head? := by
    intro k ip hip hversion hipv4 hfirst
    have hwhitelisted := hrun (stranger settings kwargs k ip hip) rfl rfl
    obtain ⟨row, hmem, haccount, hsender⟩ := exists_row_of_isWhitelisted
      (c := stranger settings kwargs k ip hip) hdomainSpf hwhitelists hwiped.domainSpf rfl rfl hipv4
      hversion hfirst hwhitelisted
    rcases hsender with hsender | hhead
    · exact absurd ⟨row.2, hwiped.stored row hmem, haccount, hsender⟩ hno
    · exact List.mem_map.mpr ⟨row, hmem, hhead⟩
  have hsubset : [some '1', some '2', some '3'] ⊆
      run.tables.whitelists.rows.map fun row => (Unicode.lower row.2.sender).head? := by
    intro k hk
    simp only [List.mem_cons, List.not_mem_nil, or_false] at hk
    rcases hk with rfl | rfl | rfl
    · exact hrow '1' ⟨.v6, 0x00010000000000000000000000000001⟩ (by decide) rfl (by decide) (by decide)
    · exact hrow '2' ⟨.v6, 0x00020000000000000000000000000001⟩ (by decide) rfl (by decide) (by decide)
    · exact hrow '3' ⟨.v6, 0x00030000000000000000000000000001⟩ (by decide) rfl (by decide) (by decide)
  have hlength := (List.subperm_of_subset (by decide) hsubset).length_le
  rw [List.length_map] at hlength
  have hrows := hwiped.length_le.trans (length_submitted_le settings kwargs)
  exact absurd (hlength.trans hrows) (by decide)

/-- **A recipient is whitelisted exactly when a pair that is asked for is stored.** -/
theorem whitelists_iff {settings : Settings} {env : Env} {isLocalDomain : Str → Except Exn Bool}
    {kwargs : PluginKwargs} (hdomainSpf : env.fails .selectWhitelistDomainSpf = false)
    (hwhitelists : env.fails .selectWhitelists = false)
    (hdomain : settings.wlRcptWhitelistDomainForGreylisting = false)
    (hauth : kwargs.saslUsername ≠ []) (hemail : isEmail kwargs.recipient = true)
    (hexternal : kwargs.saslUsernameDomain ≠ kwargs.recipientDomain)
    (hlocal : isLocalDomain kwargs.recipientDomain = .ok false) :
    Whitelists settings env isLocalDomain kwargs ↔ TakesEffect settings kwargs := by
  have heq := fun engine t => restriction_eq engine t hdomain hauth hemail hexternal hlocal
  exact ⟨takesEffect_of_whitelists hdomainSpf hwhitelists heq,
    whitelists_of_takesEffect hdomainSpf hwhitelists heq⟩

/-- A message from u@b.com to r@x.com -/
def outbound : PluginKwargs where
  smtpSessionData := []
  sender := "u@b.com"
  senderWithoutExt := "u@b.com"
  recipient := "r@x.com"
  recipientWithoutExt := "r@x.com"
  clientAddress := "1.2.3.4"
  senderDomain := "b.com"
  recipientDomain := "x.com"
  saslUsername := "u@b.com"
  saslUsernameDomain := "b.com"

omit [Unicode] in
/-- The settings as they come. -/
theorem whitelists_default :
    letI := asciiUnicode
    Whitelists {} answering (fun _ => .ok false) outbound ↔ TakesEffect {} outbound := by
  let := asciiUnicode
  exact whitelists_iff rfl rfl rfl (by decide) (by decide) (by decide) rfl

omit [Unicode] in
/-- For a domain, the account is written without `@`. -/
theorem domain_not_whitelisted :
    letI := asciiUnicode
    let settings : Settings :=
      { wlRcptForGreylisting := false, wlRcptWithoutSpf := true, wlRcptLocalAccount := "domain" }
    isEmail outbound.saslUsername = true ∧ isEmail outbound.recipient = true ∧
      outbound.saslUsernameDomain ≠ outbound.recipientDomain ∧
      ¬Whitelists settings answering (fun _ => .ok false) outbound := by
  let := asciiUnicode
  refine ⟨by decide, by decide, by decide, fun h => ?_⟩
  obtain ⟨r, ⟨pre, post, hsubmitted, haccepted, -⟩, -⟩ := takesEffect_of_whitelists rfl rfl
    (fun engine t => restriction_eq engine t rfl (by decide) (by decide) (by decide) rfl) h
  have hmem : r ∈ [(⟨{ account := "b.com", sender := "r@x.com" }, []⟩ : WhitelistRow)] := by
    have heq : pre ++ r :: post = [⟨{ account := "b.com", sender := "r@x.com" }, []⟩] :=
      hsubmitted.symm
    rw [← heq]
    simp
  rw [List.mem_singleton.mp hmem] at haccepted
  exact not_accepted_of_account (by decide) haccepted

end IRedAPD.WhitelistOutboundRecipient
