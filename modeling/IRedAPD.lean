import IRedAPD.Py.Str
import IRedAPD.Py.LetterCase
import IRedAPD.Py.Dict
import IRedAPD.Py.Regex
import IRedAPD.Py.IpAddress
import IRedAPD.Py.IpText
import IRedAPD.Py.Ipv6Form
import IRedAPD.Py.Outcome
import IRedAPD.Framing
import IRedAPD.Libs.Utils
import IRedAPD.Asynchat
import IRedAPD.Equiv.Asynchat
import IRedAPD.Libs.Modeler
import IRedAPD.Libs.Channel
import IRedAPD.Equiv.Channel.Lines
import IRedAPD.Equiv.Channel.Session
import IRedAPD.Equiv.Channel.Fragmentation
import IRedAPD.Equiv.Channel.Replies
import IRedAPD.Equiv.Channel.Isolation
import IRedAPD.Libs.Srslib
import IRedAPD.Py.Repr
import IRedAPD.Sql.Literal
import IRedAPD.Web.Db
import IRedAPD.Equiv.Sqlquote
import IRedAPD.Sql.Like
import IRedAPD.Libs.Dnsspf
import IRedAPD.Libs.Vmail
import IRedAPD.Plugins.RejectSenderLoginMismatch
import IRedAPD.Equiv.Modeler
import IRedAPD.Equiv.Addresses
import IRedAPD.Equiv.Plugins.RejectSenderLoginMismatch
import IRedAPD.Py.SetOrder
import IRedAPD.Libs.Amavisd
import IRedAPD.Plugins.AmavisdWblist
import IRedAPD.Equiv.Plugins.AmavisdWblist
import IRedAPD.Sql.Table
import IRedAPD.Sql.Expiry
import IRedAPD.History
import IRedAPD.Plugins.Throttle
import IRedAPD.Equiv.Plugins.Throttle.Selection
import IRedAPD.Equiv.Plugins.Throttle.Load
import IRedAPD.Equiv.Plugins.Throttle.Record
import IRedAPD.Equiv.Plugins.Throttle.Step
import IRedAPD.Equiv.Plugins.Throttle.Counter
import IRedAPD.Equiv.Plugins.Throttle.MessageLimit
import IRedAPD.Equiv.Plugins.Throttle.TrackingKeys
import IRedAPD.Equiv.Plugins.Throttle.QuotaLimit
import IRedAPD.Plugins.Greylisting
import IRedAPD.Tools.CleanupDb
import IRedAPD.Equiv.Tools.CleanupDb
import IRedAPD.Equiv.Plugins.Greylisting.Step
import IRedAPD.Equiv.Plugins.Greylisting.Acceptance
import IRedAPD.Equiv.Plugins.Greylisting.PassedClient
import IRedAPD.Equiv.Plugins.Greylisting.Cron
import IRedAPD.Equiv.Plugins.Greylisting.Whitelists
import IRedAPD.Equiv.Plugins.Greylisting.Settings
import IRedAPD.Equiv.Plugins.Throttle.Cron
import IRedAPD.Plugins.Throttle.Restriction
import IRedAPD.Equiv.Plugins.Throttle.Restriction
import IRedAPD.Sql.Column
import IRedAPD.Plugins.Throttle.Columns
import IRedAPD.Equiv.Plugins.Throttle.Columns
import IRedAPD.Equiv.Plugins.Throttle.Accounting
import IRedAPD.Equiv.Plugins.Throttle.Inheritance
import IRedAPD.Equiv.Plugins.Throttle.Notification
import IRedAPD.Daemon
import IRedAPD.Concurrency
import IRedAPD.Equiv.Daemon
import IRedAPD.Equiv.Concurrency
import IRedAPD.Equiv.Libs.Dnsspf.Budget
import IRedAPD.DepthFirst
import IRedAPD.Equiv.Libs.Dnsspf.Marks
import IRedAPD.Equiv.Libs.Dnsspf.Collection
import IRedAPD.Equiv.Libs.Dnsspf.Membership
import IRedAPD.Sql.Engine
import IRedAPD.Sql.Statement
import IRedAPD.Libs.Greylisting
import IRedAPD.Equiv.Libs.Greylisting
import IRedAPD.Plugins.WhitelistOutboundRecipient
import IRedAPD.Equiv.Plugins.WhitelistOutboundRecipient
import IRedAPD.Tools.SpfToGreylistWhitelists
import IRedAPD.Equiv.Tools.SpfToGreylistWhitelists
import IRedAPD.Equiv.Tools.SpfToGreylistWhitelists.DnsTrouble
import IRedAPD.Equiv.PolicyAddresses
import IRedAPD.Equiv.Plugins.AmavisdWblist.Enforcement
import IRedAPD.Equiv.Plugins.AmavisdWblist.Precedence
import IRedAPD.Libs.Wblist
import IRedAPD.Equiv.Libs.Wblist
import IRedAPD.Equiv.AddressFormats
import IRedAPD.Equiv.Interpolation
import IRedAPD.Equiv.MailAddress
import IRedAPD.Equiv.Libs.Srslib.Patterns
import IRedAPD.Equiv.Libs.Srslib.Timestamps
import IRedAPD.Equiv.Libs.Srslib.Reverse
import IRedAPD.Equiv.Channel.SrsRoundTrip
import IRedAPD.Equiv.Plugins.RejectSenderLoginMismatch.AliasSenders
import IRedAPD.Py.ForLoop
import IRedAPD.Libs.Ldaplib
import IRedAPD.Ldap.Directory
import IRedAPD.Plugins.LdapMaillistAccessPolicy
import IRedAPD.Equiv.Plugins.LdapMaillistAccessPolicy.SubDomains
import IRedAPD.Equiv.Plugins.LdapMaillistAccessPolicy.ModeratorsOnly
import IRedAPD.Libs.VmailSql
import IRedAPD.Plugins.SqlAliasAccessPolicy
import IRedAPD.Plugins.SqlMlAccessPolicy
import IRedAPD.Equiv.Plugins.SqlAliasAccessPolicy
import IRedAPD.Equiv.Plugins.SqlMlAccessPolicy
import IRedAPD.Py.IpLetterCase
import IRedAPD.Equiv.LetterCase
import IRedAPD.Equiv.Libs.Wblist.Steps
import IRedAPD.Equiv.Libs.Wblist.Import
import IRedAPD.Equiv.Libs.Wblist.Detour
import IRedAPD.Equiv.Libs.Wblist.ReadBack
import IRedAPD.Equiv.Libs.Wblist.Delete
import IRedAPD.Equiv.Libs.Wblist.AllOrNothing
import IRedAPD.Plugins.WblistRdns
import IRedAPD.Equiv.Plugins.WblistRdns
import IRedAPD.Tools.MigrateCluebringerGreylisting
import IRedAPD.Equiv.Tools.MigrateCluebringerGreylisting
import IRedAPD.Equiv.RecipientDelimiters
import IRedAPD.Equiv.TrustedClients
import IRedAPD.Equiv.IpPatterns
import IRedAPD.Equiv.IsIp
import IRedAPD.Equiv.Asynchat.ProducerFifo
import IRedAPD.Equiv.Asyncore.Turn
import IRedAPD.Equiv.Asyncore.SocketMap
import IRedAPD.Equiv.Asyncore.Serial
import IRedAPD.Equiv.Asyncore.Wire
import IRedAPD.Equiv.Asyncore.Isolation
import IRedAPD.Equiv.Asyncore.Replies
import IRedAPD.Ldap.FilterText
import IRedAPD.Libs.Ldaplib.ConnUtils
import IRedAPD.Equiv.Libs.Ldaplib.FilterText
import IRedAPD.Equiv.Libs.Ldaplib.Searches
import IRedAPD.Equiv.Plugins.RejectSenderLoginMismatch.LdapSenders
import IRedAPD.Equiv.Plugins.LdapMaillistAccessPolicy.Members
import IRedAPD.Plugins.Senderscore
import IRedAPD.Tools.SenderscoreAdmin
import IRedAPD.Equiv.Plugins.Senderscore.Sources
import IRedAPD.Equiv.Plugins.Senderscore.Cached
import IRedAPD.Equiv.Libs.Srslib.Forgery
import IRedAPD.Equiv.Channel.SrsChain
import IRedAPD.SortByKey
import IRedAPD.Plugins.RejectNullSender
import IRedAPD.Libs.LoadPlugins
import IRedAPD.Equiv.Libs.LoadPlugins
import IRedAPD.Equiv.Plugins.Actions
import IRedAPD.Libs.Sql
import IRedAPD.Equiv.Channel.SrsOnce
import IRedAPD.Equiv.Channel.SrsDecision
