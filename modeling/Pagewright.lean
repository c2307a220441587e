import Pagewright.Files
import Pagewright.Http.Request
import Pagewright.Http.Response
import Pagewright.Http.Router
import Pagewright.Http.Status
import Pagewright.Json.Reader
import Pagewright.Json.Value
import Pagewright.Json.Writer
import Pagewright.Log
import Pagewright.Main
import Pagewright.Markup.Arguments
import Pagewright.Markup.Component
import Pagewright.Markup.Element
import Pagewright.Markup.Registry
import Pagewright.Markup.StyleSheet
import Pagewright.Markup.Tag
import Pagewright.Markup.ValueText
import Pagewright.Number.Decimal
import Pagewright.Number.Double
import Pagewright.Page.Context
import Pagewright.Page.Handler
import Pagewright.Page.Pool
import Pagewright.Page.RenderFault
import Pagewright.Page.Variables
import Pagewright.Proofs.AbsentFiles
import Pagewright.Proofs.Agreement
import Pagewright.Proofs.Answers
import Pagewright.Proofs.AttributeOrder
import Pagewright.Proofs.AttributeReader
import Pagewright.Proofs.BoundVariables
import Pagewright.Proofs.BroadcastPass
import Pagewright.Proofs.BrokenText
import Pagewright.Proofs.Classification
import Pagewright.Proofs.ComponentCalls
import Pagewright.Proofs.ComponentLists
import Pagewright.Proofs.ComponentNames
import Pagewright.Proofs.ComponentOutcomes
import Pagewright.Proofs.ComponentSpecs
import Pagewright.Proofs.Confinement
import Pagewright.Proofs.ConnectionHistory
import Pagewright.Proofs.Delivery
import Pagewright.Proofs.ElementCalls
import Pagewright.Proofs.Environments
import Pagewright.Proofs.FilePaths
import Pagewright.Proofs.FreshContext
import Pagewright.Proofs.LibraryArguments
import Pagewright.Proofs.LibraryCalls
import Pagewright.Proofs.MachineSteps
import Pagewright.Proofs.MirroredAnswers
import Pagewright.Proofs.MirroredArguments
import Pagewright.Proofs.MirroredCalls
import Pagewright.Proofs.MirroredContexts
import Pagewright.Proofs.MirroredLists
import Pagewright.Proofs.MirroredPages
import Pagewright.Proofs.MirroredRuns
import Pagewright.Proofs.MirroredSteps
import Pagewright.Proofs.MirroredStores
import Pagewright.Proofs.MirroredTags
import Pagewright.Proofs.MirroredTexts
import Pagewright.Proofs.MovedTables
import Pagewright.Proofs.NameTokens
import Pagewright.Proofs.NearestDouble
import Pagewright.Proofs.NestedCalls
import Pagewright.Proofs.NumberTexts
import Pagewright.Proofs.OpenedFiles
import Pagewright.Proofs.Overlays
import Pagewright.Proofs.PageReuse
import Pagewright.Proofs.PageScripts
import Pagewright.Proofs.PathSpellings
import Pagewright.Proofs.PoolUse
import Pagewright.Proofs.PositionalTexts
import Pagewright.Proofs.Registrations
import Pagewright.Proofs.Reloads
import Pagewright.Proofs.RenderIsolation
import Pagewright.Proofs.RenderOutcomes
import Pagewright.Proofs.Responses
import Pagewright.Proofs.RouteLookup
import Pagewright.Proofs.RouteOrder
import Pagewright.Proofs.Runs
import Pagewright.Proofs.ShortestDecimal
import Pagewright.Proofs.ShortestDigits
import Pagewright.Proofs.ShownTexts
import Pagewright.Proofs.SocketFrames
import Pagewright.Proofs.StyleRules
import Pagewright.Proofs.TableCalls
import Pagewright.Proofs.TableContents
import Pagewright.Proofs.TableEntries
import Pagewright.Proofs.TableOrders
import Pagewright.Proofs.TagReader
import Pagewright.Proofs.TextBytes
import Pagewright.Proofs.TextCalls
import Pagewright.Proofs.TextOrder
import Pagewright.Proofs.VariableTexts
import Pagewright.Proofs.Visibility
import Pagewright.Proofs.WatcherThreads
import Pagewright.Reload.Connections
import Pagewright.Reload.FileChange
import Pagewright.Reload.LiveReload
import Pagewright.Reload.Outbound
import Pagewright.Reload.Session
import Pagewright.Reload.WatchEvent
import Pagewright.Reload.Watcher
import Pagewright.Script.Builtin
import Pagewright.Script.Chunk
import Pagewright.Script.Fault
import Pagewright.Script.Frame
import Pagewright.Script.Library
import Pagewright.Script.Library.Arguments
import Pagewright.Script.Library.Basic
import Pagewright.Script.Library.Coroutines
import Pagewright.Script.Library.Format
import Pagewright.Script.Library.Math
import Pagewright.Script.Library.Strings
import Pagewright.Script.Library.Tables
import Pagewright.Script.Library.Utf8
import Pagewright.Script.Machine
import Pagewright.Script.Numeral
import Pagewright.Script.Operation
import Pagewright.Script.Parser
import Pagewright.Script.Pattern
import Pagewright.Script.Run
import Pagewright.Script.SourceError
import Pagewright.Script.Store
import Pagewright.Script.Table
import Pagewright.Script.Term
import Pagewright.Script.Token
import Pagewright.Script.Value
import Pagewright.Server.Address
import Pagewright.Server.ClientScript
import Pagewright.Server.ComponentList
import Pagewright.Server.Config
import Pagewright.Server.Environment
import Pagewright.Server.Network
import Pagewright.Server.Options
import Pagewright.Server.Service
import Pagewright.Server.Startup
import Pagewright.Server.Timing
import Pagewright.Text.Blank
import Pagewright.Text.Casing
import Pagewright.Text.Percent
import Pagewright.Text.Printable
import Pagewright.Text.Quoted
import Pagewright.Text.Ranges
import Pagewright.Text.Split
import Pagewright.Text.Utf8
