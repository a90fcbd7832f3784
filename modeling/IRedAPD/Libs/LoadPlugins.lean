/-
  `load_enabled_plugins` of `libs/utils.py`, and the `Modeler` of a backend with
  what it has loaded.
-/
import IRedAPD.Libs.Modeler
import IRedAPD.SortByKey

namespace IRedAPD

open Py

variable {ω : Type*}

/-- `settings.backend` -/
inductive Backend where
  | ldap
  | mysql
  | pgsql
  deriving DecidableEq, Repr

/-- A plugin with the attributes it adds to the LDAP queries. -/
structure PluginModule (ω : Type*) extends Plugin ω where
  senderSearchAttrlist : Option (List Str) := none
  recipientSearchAttrlist : Option (List Str) := none

/-- `PLUGIN_PRIORITIES` of `libs/__init__.py` -/
def pluginPriorities : Dict Str ℤ :=
  [("reject_null_sender", 100), ("reject_to_hostname", 100), ("wblist_rdns", 99),
    ("reject_sender_login_mismatch", 90), ("greylisting", 80),
    ("ldap_force_change_password_in_days", 70), ("sql_force_change_password_in_days", 70),
    ("throttle", 60), ("ldap_maillist_access_policy", 50), ("sql_ml_access_policy", 51),
    ("sql_alias_access_policy", 50), ("amavisd_wblist", 40), ("whitelist_outbound_recipient", 30),
    ("senderscore", 10)]

/-- What `load_enabled_plugins` reads of the settings and of the file system. -/
structure PluginEnv (ω : Type*) where
  backend : Backend
  /-- `settings.plugins` -/
  plugins : List Str := []
  /-- `settings.PLUGIN_PRIORITIES` -/
  pluginPriorities : Dict Str ℤ := []
  /-- whether there is a file of the plugin -/
  isfile : Str → Bool
  /-- `__import__` -/
  importModule : Str → Except Exn (PluginModule ω)

/-- The result of `load_enabled_plugins`. -/
structure LoadedPlugins (ω : Type*) where
  loadedPlugins : List (PluginModule ω)
  senderSearchAttrlist : List Str
  recipientSearchAttrlist : List Str

namespace PluginEnv

/-- `_plugin_priorities[p]`: the settings go before the table, and 0 is for all others. -/
def priority (env : PluginEnv ω) (p : Str) : ℤ :=
  ((env.pluginPriorities.get? p).or (IRedAPD.pluginPriorities.get? p)).getD 0

/-- `ordered_plugins` -/
def orderedPlugins (env : PluginEnv ω) (plugins : List Str) : List Str :=
  let plugins := if plugins.isEmpty then env.plugins else plugins
  SortByKey.sortDesc env.priority (plugins.filter env.isfile)

/-- A plugin that cannot be imported is left out. -/
def imported (env : PluginEnv ω) (ordered : List Str) : List (PluginModule ω) :=
  ordered.filterMap fun p => (env.importModule p).toOption

/-- `sender_search_attrlist` or `recipient_search_attrlist` -/
def attrlist (env : PluginEnv ω) (attrs : PluginModule ω → Option (List Str))
    (loaded : List (PluginModule ω)) : List Str :=
  match env.backend with
  | .ldap => "objectClass".toList :: loaded.flatMap fun plugin => (attrs plugin).getD []
  | .mysql | .pgsql => []

/-- `load_enabled_plugins`, when the plugins are in order. -/
def load (env : PluginEnv ω) (ordered : List Str) : LoadedPlugins ω :=
  let loaded := env.imported ordered
  ⟨loaded, env.attrlist PluginModule.senderSearchAttrlist loaded,
    env.attrlist PluginModule.recipientSearchAttrlist loaded⟩

/-- `load_enabled_plugins` -/
def loadEnabledPlugins (env : PluginEnv ω) (plugins : List Str) : LoadedPlugins ω :=
  env.load (env.orderedPlugins plugins)

end PluginEnv

/-- `Modeler.handle_data` of a backend; `getAccountLdif` is the search for some attributes. -/
def modelerHandleData [Unicode] (backend : Backend) (getAccountLdif : List Str → GetAccountLdif ω)
    (loaded : LoadedPlugins ω) (s : Session) (w : ω) : Except Exn Str × ω :=
  let plugins := loaded.loadedPlugins.map PluginModule.toPlugin
  match backend with
  | .ldap =>
    ldapHandleData (getAccountLdif loaded.senderSearchAttrlist)
      (getAccountLdif loaded.recipientSearchAttrlist) plugins s w
  | .mysql | .pgsql => sqlHandleData plugins s w

end IRedAPD
