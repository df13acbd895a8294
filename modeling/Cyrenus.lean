import Cyrenus.Lib.Trace
import Cyrenus.Lib.Stage
import Cyrenus.Lib.Table
import Cyrenus.Lib.Window
import Cyrenus.Lib.Bucket
import Cyrenus.Lib.Meter
import Cyrenus.Lib.BoundedLog
import Cyrenus.Lib.Broadcast
import Cyrenus.Lib.Train
import Cyrenus.Lib.Extremes
import Cyrenus.Lib.Rates
import Cyrenus.Lib.CString
import Cyrenus.Lib.Buffer
import Cyrenus.Lib.Shell
import Cyrenus.Lib.Utf8
import Cyrenus.Lib.JsonText
import Cyrenus.Lib.Cursor
import Cyrenus.Lib.Getopt
import Cyrenus.Lib.Lines
import Cyrenus.Common
import Cyrenus.Xdp.Packet
import Cyrenus.Xdp.Maps
import Cyrenus.Xdp.Checks
import Cyrenus.Xdp.Prog
import Cyrenus.Xdp.Isolation
import Cyrenus.Xdp.FlowTable
import Cyrenus.Xdp.Icmp
import Cyrenus.Xdp.IcmpConformance
import Cyrenus.Xdp.Syn
import Cyrenus.Xdp.Udp
import Cyrenus.Xdp.Dns
import Cyrenus.Xdp.SizeFilters
import Cyrenus.Xdp.Leniency
import Cyrenus.Xdp.AttackLog
import Cyrenus.Xdp.Fragments
import Cyrenus.Xdp.FlowHistory
import Cyrenus.Xdp.PayloadLength
import Cyrenus.Xdp.Direction
import Cyrenus.Xdp.LengthExtremes
import Cyrenus.Xdp.InterArrival
import Cyrenus.Xdp.EstablishedFlows
import Cyrenus.Xdp.TrailingFragments
import Cyrenus.Address
import Cyrenus.Config.Runtime
import Cyrenus.Config.Precedence
import Cyrenus.Config.Ranges
import Cyrenus.Loader
import Cyrenus.Startup
import Cyrenus.Api.Json
import Cyrenus.Api.Settings
import Cyrenus.Api.Rules
import Cyrenus.Api.RuleTable
import Cyrenus.Api.RuleIds
import Cyrenus.Api.RuleList
import Cyrenus.Api.Traffic
import Cyrenus.Enforcement
import Cyrenus.Database
import Cyrenus.Api.Context
import Cyrenus.Api.Auth
import Cyrenus.Api.Keys
import Cyrenus.Api.Lists
import Cyrenus.Api.Security
import Cyrenus.Api.SecurityEvents
import Cyrenus.Api.SecurityReads
import Cyrenus.Api.Attacks
import Cyrenus.Http.Server
import Cyrenus.Http.AuthGate
import Cyrenus.Http.Permissions
import Cyrenus.Http.Sessions
import Cyrenus.Http.KeyExpiry
import Cyrenus.Http.NullPointers
import Cyrenus.Http.DeployRoute
import Cyrenus.Http.PolicyFiles
import Cyrenus.Http.SecurityStatus
import Cyrenus.Http.BodyChunks
import Cyrenus.Tetragon.Monitor
import Cyrenus.Tetragon.Events
import Cyrenus.Tetragon.EventRows
import Cyrenus.Tetragon.EventList
import Cyrenus.Tetragon.Stats
import Cyrenus.Tetragon.ParseSafety
import Cyrenus.WebSocket
import Cyrenus.TrafficMonitor
import Cyrenus.Alerts
import Cyrenus.AlertText
import Cyrenus.CountryBlocks
import Cyrenus.IpLists
import Cyrenus.Lib.Part
import Cyrenus.Http.Operations
import Cyrenus.Lib.TableHistory
import Cyrenus.System
import Cyrenus.Policy
import Cyrenus.Lib.Numbered
import Cyrenus.Http.KeyAccess
import Cyrenus.Http.KeyList
import Cyrenus.Lib.Filed
import Cyrenus.Xdp.Shared
import Cyrenus.Xdp.AttackReports
import Cyrenus.Xdp.Totals
import Cyrenus.Xdp.Conservation
import Cyrenus.Tetragon.Pipeline
import Cyrenus.Lib.Paging
import Cyrenus.Tetragon.EventPages
import Cyrenus.Http.Connections
import Cyrenus.Http.PolicyStore
import Cyrenus.Lib.JsonWeight
import Cyrenus.TrafficText
import Cyrenus.Dashboard
