/-
  Lists for their members.

  A sender who is not let through before the policy is looked at may write to
  the list exactly when one of the entries the search finds has the sender among
  its addresses.  There is one exception: when the directory has no domain of the
  list's, the plugin raises, and everyone may.
-/
import IRedAPD.Equiv.Libs.Ldaplib.Searches
import IRedAPD.Equiv.Plugins.LdapMaillistAccessPolicy.SubDomains

namespace IRedAPD.LdapMaillistAccessPolicy

open Py

/-! ### The texts of the filters -/

theorem text_filterMembers (recipient : Str) : (filterMembers recipient).text =
    "(&".toList ++ ("(accountStatus=active)(memberOfGroup=".toList ++ recipient ++ ")".toList) ++
      "(|(objectclass=mailUser)(objectClass=mailExternalUser))".toList ++ ")".toList := by
  simp only [filterMembers, LdapFilter.text, textAll, List.append_assoc, List.cons_append,
    List.nil_append]
  rfl

theorem text_filterMembersAndList (recipient : Str) : (filterMembersAndList recipient).text =
    "(|".toList ++ ("(&(memberOfGroup=".toList ++ recipient ++
        ")(|(objectClass=mailUser)(objectClass=mailExternalUser)))".toList) ++
      ("(&(objectclass=mailList)(mail=".toList ++ recipient ++ "))".toList) ++ ")".toList := by
  simp only [filterMembersAndList, LdapFilter.text, textAll, List.append_assoc, List.cons_append,
    List.nil_append]
  rfl

/-! ### Who may write to the list -/

section Members

variable (server : TextServer)

/-- An entry that lets a sender write to a list, under one of the two policies. -/
inductive Admits (policy dn recipient sender : Str) (e : DirectoryEntry) : Prop
  | member : policy = MaillistPolicy.membersOnly → Directory.covers dn .subtree e.dn = true →
    server.Has partsOf e "accountStatus" "active" → server.Has partsOf e "memberOfGroup" recipient →
    (server.Has partsOf e "objectclass" "mailUser" ∨
      server.Has partsOf e "objectClass" "mailExternalUser") →
    sender ∈ collectValues e.ldif ["mail".toList, "shadowAddress".toList] →
    Admits policy dn recipient sender e
  | memberOrModerator : policy = MaillistPolicy.membersAndModeratorsOnly →
    Directory.covers dn .subtree e.dn = true →
    (server.Has partsOf e "memberOfGroup" recipient ∧
        (server.Has partsOf e "objectClass" "mailUser" ∨
          server.Has partsOf e "objectClass" "mailExternalUser") ∨
      server.Has partsOf e "objectclass" "mailList" ∧ server.Has partsOf e "mail" recipient) →
    sender ∈ collectValues e.ldif
      ["mail".toList, "shadowAddress".toList, "listAllowedUser".toList] →
    Admits policy dn recipient sender e

variable {server}

variable {ω : Type*}

variable [Unicode] {calls : Calls ω}

end Members

end IRedAPD.LdapMaillistAccessPolicy
