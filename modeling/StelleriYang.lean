import StelleriYang.ContextOptions
import StelleriYang.Foreign
import StelleriYang.InterfaceTypes
import StelleriYang.InterfacesErrors
import StelleriYang.InterfacesKeys
import StelleriYang.InterfacesMerge
import StelleriYang.InterfacesReading
import StelleriYang.InterfacesRoundTrip
import StelleriYang.ModuleLists
import StelleriYang.Paths
import StelleriYang.RoutingDecoding
import StelleriYang.RoutingEntries
import StelleriYang.RoutingRoundTrip
import StelleriYang.SearchPaths
import StelleriYang.Yang
import StelleriYang.Lib.Interleaved
import StelleriYang.InterfacesCycles
import StelleriYang.RoutingOutcomes
import StelleriYang.ContextRuns
import StelleriYang.Documents
import StelleriYang.Lib.Checks
import StelleriYang.DecoderErrors
import StelleriYang.Lib.Shuffle
import StelleriYang.SiblingOrder
import StelleriYang.ExceptionText
