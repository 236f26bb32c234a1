import TelepathyFacebook.Lib.Runs
import TelepathyFacebook.Lib.AListLoop
import TelepathyFacebook.Lib.Decimal
import TelepathyFacebook.Lib.HashTable
import TelepathyFacebook.Lib.FormEncoding
import TelepathyFacebook.Lib.Letters
import TelepathyFacebook.Lib.Base64
import TelepathyFacebook.Lib.Ledger
import TelepathyFacebook.Lib.Fields
import TelepathyFacebook.Lib.Terms
import TelepathyFacebook.Strto
import TelepathyFacebook.Json
import TelepathyFacebook.ConnectionData
import TelepathyFacebook.StateFile
import TelepathyFacebook.Session
import TelepathyFacebook.Sessions
import TelepathyFacebook.TypedData
import TelepathyFacebook.ContactList
import TelepathyFacebook.Roster
import TelepathyFacebook.ContactQueries
import TelepathyFacebook.ContactUid
import TelepathyFacebook.Identity
import TelepathyFacebook.Avatars
import TelepathyFacebook.AvatarChain
import TelepathyFacebook.AvatarTokens
import TelepathyFacebook.PresenceClient
import TelepathyFacebook.SubscriptionClient
import TelepathyFacebook.AccountVerify
import TelepathyFacebook.Lifecycle
import TelepathyFacebook.ChannelTracking
import TelepathyFacebook.Protocol
import TelepathyFacebook.Observer
import TelepathyFacebook.HttpValues
import TelepathyFacebook.HttpTyped
import TelepathyFacebook.Soup
import TelepathyFacebook.HttpParse
import TelepathyFacebook.HttpRequest
import TelepathyFacebook.UrlCmp
import TelepathyFacebook.LoginGrammar
import TelepathyFacebook.EventLoop
import TelepathyFacebook.ProxyWire
import TelepathyFacebook.Proxy
import TelepathyFacebook.ProxyConn
import TelepathyFacebook.ProxySteps
import TelepathyFacebook.ProxyInv
import TelepathyFacebook.ProxyRuns
import TelepathyFacebook.ProxyFate
import TelepathyFacebook.ProxyFds
import TelepathyFacebook.ProxyTalk
import TelepathyFacebook.ProxySocks
import TelepathyFacebook.ProxyHttp
import TelepathyFacebook.ProxyClients
import TelepathyFacebook.Ssl
import TelepathyFacebook.SslInv
import TelepathyFacebook.SslSteps
import TelepathyFacebook.SslRuns
import TelepathyFacebook.SslHandover
import TelepathyFacebook.DBusSignature
import TelepathyFacebook.GTypes
