import Mathlib.Data.List.Nodup
import Mathlib.Data.List.Basic

/-!
# Interface types

The identities of `iana-if-type` as an enumeration, and the two tables between the enumeration and
the names of the identities: a switch with a catch-all in one direction, an exact-match map in the
other.

## Main results

* `ianaIfTypeFromString_toString` — the map undoes the switch on every type but `unknown`
* `ianaIfTypeToString_fromString` — and the switch undoes the map on every name it knows
-/

namespace StelleriYang

/-- `enum class IanaIfType`. -/
inductive IanaIfType where
  | unknown | other | regular1822 | hdh1822 | ddnX25 | rfc877x25 | ethernetCsmacd | iso88023Csmacd
  | iso88024TokenBus | iso88025TokenRing | iso88026Man | starLan | proteon10Mbit | proteon80Mbit
  | hyperchannel | fddi | lapb | sdlc | ds1 | e1 | basicISDN | primaryISDN
  | propPointToPointSerial | ppp | softwareLoopback | eon | ethernet3Mbit | nsip | slip | ultra
  | ds3 | sip | frameRelay | rs232 | para | arcnet | arcnetPlus | miox25 | sonet | x25ple
  | iso88022llc | localTalk | smdsDxi | frameRelayService | v35 | hssi | hippi | modem | aal5
  | sonetPath | sonetVT | smdsIcip | propVirtual | propMultiplexor | ieee80212 | fibreChannel
  | hippiInterface | frameRelayInterconnect | aflane8023 | aflane8025 | cctEmul | fastEther | isdn
  | v11 | v36 | g703at64k | g703at2mb | qllc | fastEtherFX | channel | ieee80211 | ibm370parChan
  | escon | dlsw | isdns | isdnu | lapd | ipSwitch | rsrb | atmLogical | ds0 | ds0Bundle | bsc
  | async | cnr | iso88025Dtr | eplrs | arap | propCnls | hostPad | termPad | frameRelayMPI | x213
  | adsl | radsl | sdsl | vdsl | iso88025CRFPInt | myrinet | voiceEM | voiceFXO | voiceFXS
  | voiceEncap | voiceOverIp | atmDxi | atmFuni | atmIma | pppMultilinkBundle | ipOverCdlc
  | ipOverClaw | stackToStack | virtualIpAddress | mpc | ipOverAtm | iso88025Fiber | tdlc
  | gigabitEthernet | hdlc | lapf | v37 | x25mlp | x25huntGroup | transpHdlc | interleave | fast
  | ip | docsCableMaclayer | docsCableDownstream | docsCableUpstream | a12MppSwitch | tunnel
  | coffee | ces | atmSubInterface | l2vlan | l3ipvlan | l3ipxvlan | digitalPowerline
  | mediaMailOverIp | dtm | dcn | ipForward | msdsl | ieee1394 | if_gsn | dvbRccMacLayer
  | dvbRccDownstream | dvbRccUpstream | atmVirtual | mplsTunnel | srp | voiceOverAtm
  | voiceOverFrameRelay | idsl | compositeLink | ss7SigLink | propWirelessP2P | frForward
  | rfc1483 | usb | ieee8023adLag | bgppolicyaccounting | frf16MfrBundle | h323Gatekeeper
  | h323Proxy | mpls | mfSigLink | hdsl2 | shdsl | ds1FDL | pos | dvbAsiIn | dvbAsiOut | plc
  | nfas | tr008 | gr303RDT | gr303IDT | isup | propDocsWirelessMaclayer
  | propDocsWirelessDownstream | propDocsWirelessUpstream | hiperlan2 | propBWAp2Mp
  | sonetOverheadChannel | digitalWrapperOverheadChannel | aal2 | radioMAC | atmRadio | imt | mvl
  | reachDSL | frDlciEndPt | atmVciEndPt | opticalChannel | opticalTransport | propAtm
  | voiceOverCable | infiniband | teLink | q2931 | virtualTg | sipTg | sipSig
  | docsCableUpstreamChannel | econet | pon155 | pon622 | bridge | linegroup | voiceEMFGD
  | voiceFGDEANA | voiceDID | mpegTransport | sixToFour | gtp | pdnEtherLoop1 | pdnEtherLoop2
  | opticalChannelGroup | homepna | gfp | ciscoISLvlan | actelisMetaLOOP | fcipLink | rpr | qam
  | lmp | cblVectaStar | docsCableMCmtsDownstream | adsl2 | macSecControlledIF
  | macSecUncontrolledIF | aviciOpticalEther | atmbond | voiceFGDOS | mocaVersion1 | ieee80216WMAN
  | adsl2plus | dvbRcsMacLayer | dvbTdm | dvbRcsTdma | x86Laps | wwanPP | wwanPP2 | voiceEBS
  | ifPwType | ilan | pip | aluELP | gpon | vdsl2 | capwapDot11Profile | capwapDot11Bss
  | capwapWtpVirtualRadio | bits | docsCableUpstreamRfPort | cableDownstreamRfPort
  | vmwareVirtualNic | ieee802154 | otnOdu | otnOtu | ifVfiType | g9981 | g9982 | g9983 | aluEpon
  | aluEponOnu | aluEponPhysicalUni | aluEponLogicalLink | aluGponOnu | aluGponPhysicalUni
  | vmwareNicTeam | docsOfdmDownstream | docsOfdmaUpstream | gfast | sdci | xboxWireless | fastdsl
  | docsCableScte55d1FwdOob | docsCableScte55d1RetOob | docsCableScte55d2DsOob
  | docsCableScte55d2UsOob | docsCableNdf | docsCableNdr | ptm | ghn | otnOtsi | otnOtuc | otnOduc
  | otnOtsig | microwaveCarrierTermination | microwaveRadioLinkTerminal | ieee8021axDrni | ax25
  | ieee19061nanocom | cpri | omni | roe | p2pOverLan
  deriving DecidableEq, Repr

/-- The canonical name of the identity. -/
def ianaIfTypeToString : IanaIfType → String
  | .other => "other"
  | .regular1822 => "regular1822"
  | .hdh1822 => "hdh1822"
  | .ddnX25 => "ddnX25"
  | .rfc877x25 => "rfc877x25"
  | .ethernetCsmacd => "ethernetCsmacd"
  | .iso88023Csmacd => "iso88023Csmacd"
  | .iso88024TokenBus => "iso88024TokenBus"
  | .iso88025TokenRing => "iso88025TokenRing"
  | .iso88026Man => "iso88026Man"
  | .starLan => "starLan"
  | .proteon10Mbit => "proteon10Mbit"
  | .proteon80Mbit => "proteon80Mbit"
  | .hyperchannel => "hyperchannel"
  | .fddi => "fddi"
  | .lapb => "lapb"
  | .sdlc => "sdlc"
  | .ds1 => "ds1"
  | .e1 => "e1"
  | .basicISDN => "basicISDN"
  | .primaryISDN => "primaryISDN"
  | .propPointToPointSerial => "propPointToPointSerial"
  | .ppp => "ppp"
  | .softwareLoopback => "softwareLoopback"
  | .eon => "eon"
  | .ethernet3Mbit => "ethernet3Mbit"
  | .nsip => "nsip"
  | .slip => "slip"
  | .ultra => "ultra"
  | .ds3 => "ds3"
  | .sip => "sip"
  | .frameRelay => "frameRelay"
  | .rs232 => "rs232"
  | .para => "para"
  | .arcnet => "arcnet"
  | .arcnetPlus => "arcnetPlus"
  | .miox25 => "miox25"
  | .sonet => "sonet"
  | .x25ple => "x25ple"
  | .iso88022llc => "iso88022llc"
  | .localTalk => "localTalk"
  | .smdsDxi => "smdsDxi"
  | .frameRelayService => "frameRelayService"
  | .v35 => "v35"
  | .hssi => "hssi"
  | .hippi => "hippi"
  | .modem => "modem"
  | .aal5 => "aal5"
  | .sonetPath => "sonetPath"
  | .sonetVT => "sonetVT"
  | .smdsIcip => "smdsIcip"
  | .propVirtual => "propVirtual"
  | .propMultiplexor => "propMultiplexor"
  | .ieee80212 => "ieee80212"
  | .fibreChannel => "fibreChannel"
  | .hippiInterface => "hippiInterface"
  | .frameRelayInterconnect => "frameRelayInterconnect"
  | .aflane8023 => "aflane8023"
  | .aflane8025 => "aflane8025"
  | .cctEmul => "cctEmul"
  | .fastEther => "fastEther"
  | .isdn => "isdn"
  | .v11 => "v11"
  | .v36 => "v36"
  | .g703at64k => "g703at64k"
  | .g703at2mb => "g703at2mb"
  | .qllc => "qllc"
  | .fastEtherFX => "fastEtherFX"
  | .channel => "channel"
  | .ieee80211 => "ieee80211"
  | .ibm370parChan => "ibm370parChan"
  | .escon => "escon"
  | .dlsw => "dlsw"
  | .isdns => "isdns"
  | .isdnu => "isdnu"
  | .lapd => "lapd"
  | .ipSwitch => "ipSwitch"
  | .rsrb => "rsrb"
  | .atmLogical => "atmLogical"
  | .ds0 => "ds0"
  | .ds0Bundle => "ds0Bundle"
  | .bsc => "bsc"
  | .async => "async"
  | .cnr => "cnr"
  | .iso88025Dtr => "iso88025Dtr"
  | .eplrs => "eplrs"
  | .arap => "arap"
  | .propCnls => "propCnls"
  | .hostPad => "hostPad"
  | .termPad => "termPad"
  | .frameRelayMPI => "frameRelayMPI"
  | .x213 => "x213"
  | .adsl => "adsl"
  | .radsl => "radsl"
  | .sdsl => "sdsl"
  | .vdsl => "vdsl"
  | .iso88025CRFPInt => "iso88025CRFPInt"
  | .myrinet => "myrinet"
  | .voiceEM => "voiceEM"
  | .voiceFXO => "voiceFXO"
  | .voiceFXS => "voiceFXS"
  | .voiceEncap => "voiceEncap"
  | .voiceOverIp => "voiceOverIp"
  | .atmDxi => "atmDxi"
  | .atmFuni => "atmFuni"
  | .atmIma => "atmIma"
  | .pppMultilinkBundle => "pppMultilinkBundle"
  | .ipOverCdlc => "ipOverCdlc"
  | .ipOverClaw => "ipOverClaw"
  | .stackToStack => "stackToStack"
  | .virtualIpAddress => "virtualIpAddress"
  | .mpc => "mpc"
  | .ipOverAtm => "ipOverAtm"
  | .iso88025Fiber => "iso88025Fiber"
  | .tdlc => "tdlc"
  | .gigabitEthernet => "gigabitEthernet"
  | .hdlc => "hdlc"
  | .lapf => "lapf"
  | .v37 => "v37"
  | .x25mlp => "x25mlp"
  | .x25huntGroup => "x25huntGroup"
  | .transpHdlc => "transpHdlc"
  | .interleave => "interleave"
  | .fast => "fast"
  | .ip => "ip"
  | .docsCableMaclayer => "docsCableMaclayer"
  | .docsCableDownstream => "docsCableDownstream"
  | .docsCableUpstream => "docsCableUpstream"
  | .a12MppSwitch => "a12MppSwitch"
  | .tunnel => "tunnel"
  | .coffee => "coffee"
  | .ces => "ces"
  | .atmSubInterface => "atmSubInterface"
  | .l2vlan => "l2vlan"
  | .l3ipvlan => "l3ipvlan"
  | .l3ipxvlan => "l3ipxvlan"
  | .digitalPowerline => "digitalPowerline"
  | .mediaMailOverIp => "mediaMailOverIp"
  | .dtm => "dtm"
  | .dcn => "dcn"
  | .ipForward => "ipForward"
  | .msdsl => "msdsl"
  | .ieee1394 => "ieee1394"
  | .if_gsn => "if-gsn"
  | .dvbRccMacLayer => "dvbRccMacLayer"
  | .dvbRccDownstream => "dvbRccDownstream"
  | .dvbRccUpstream => "dvbRccUpstream"
  | .atmVirtual => "atmVirtual"
  | .mplsTunnel => "mplsTunnel"
  | .srp => "srp"
  | .voiceOverAtm => "voiceOverAtm"
  | .voiceOverFrameRelay => "voiceOverFrameRelay"
  | .idsl => "idsl"
  | .compositeLink => "compositeLink"
  | .ss7SigLink => "ss7SigLink"
  | .propWirelessP2P => "propWirelessP2P"
  | .frForward => "frForward"
  | .rfc1483 => "rfc1483"
  | .usb => "usb"
  | .ieee8023adLag => "ieee8023adLag"
  | .bgppolicyaccounting => "bgppolicyaccounting"
  | .frf16MfrBundle => "frf16MfrBundle"
  | .h323Gatekeeper => "h323Gatekeeper"
  | .h323Proxy => "h323Proxy"
  | .mpls => "mpls"
  | .mfSigLink => "mfSigLink"
  | .hdsl2 => "hdsl2"
  | .shdsl => "shdsl"
  | .ds1FDL => "ds1FDL"
  | .pos => "pos"
  | .dvbAsiIn => "dvbAsiIn"
  | .dvbAsiOut => "dvbAsiOut"
  | .plc => "plc"
  | .nfas => "nfas"
  | .tr008 => "tr008"
  | .gr303RDT => "gr303RDT"
  | .gr303IDT => "gr303IDT"
  | .isup => "isup"
  | .propDocsWirelessMaclayer => "propDocsWirelessMaclayer"
  | .propDocsWirelessDownstream => "propDocsWirelessDownstream"
  | .propDocsWirelessUpstream => "propDocsWirelessUpstream"
  | .hiperlan2 => "hiperlan2"
  | .propBWAp2Mp => "propBWAp2Mp"
  | .sonetOverheadChannel => "sonetOverheadChannel"
  | .digitalWrapperOverheadChannel => "digitalWrapperOverheadChannel"
  | .aal2 => "aal2"
  | .radioMAC => "radioMAC"
  | .atmRadio => "atmRadio"
  | .imt => "imt"
  | .mvl => "mvl"
  | .reachDSL => "reachDSL"
  | .frDlciEndPt => "frDlciEndPt"
  | .atmVciEndPt => "atmVciEndPt"
  | .opticalChannel => "opticalChannel"
  | .opticalTransport => "opticalTransport"
  | .propAtm => "propAtm"
  | .voiceOverCable => "voiceOverCable"
  | .infiniband => "infiniband"
  | .teLink => "teLink"
  | .q2931 => "q2931"
  | .virtualTg => "virtualTg"
  | .sipTg => "sipTg"
  | .sipSig => "sipSig"
  | .docsCableUpstreamChannel => "docsCableUpstreamChannel"
  | .econet => "econet"
  | .pon155 => "pon155"
  | .pon622 => "pon622"
  | .bridge => "bridge"
  | .linegroup => "linegroup"
  | .voiceEMFGD => "voiceEMFGD"
  | .voiceFGDEANA => "voiceFGDEANA"
  | .voiceDID => "voiceDID"
  | .mpegTransport => "mpegTransport"
  | .sixToFour => "sixToFour"
  | .gtp => "gtp"
  | .pdnEtherLoop1 => "pdnEtherLoop1"
  | .pdnEtherLoop2 => "pdnEtherLoop2"
  | .opticalChannelGroup => "opticalChannelGroup"
  | .homepna => "homepna"
  | .gfp => "gfp"
  | .ciscoISLvlan => "ciscoISLvlan"
  | .actelisMetaLOOP => "actelisMetaLOOP"
  | .fcipLink => "fcipLink"
  | .rpr => "rpr"
  | .qam => "qam"
  | .lmp => "lmp"
  | .cblVectaStar => "cblVectaStar"
  | .docsCableMCmtsDownstream => "docsCableMCmtsDownstream"
  | .adsl2 => "adsl2"
  | .macSecControlledIF => "macSecControlledIF"
  | .macSecUncontrolledIF => "macSecUncontrolledIF"
  | .aviciOpticalEther => "aviciOpticalEther"
  | .atmbond => "atmbond"
  | .voiceFGDOS => "voiceFGDOS"
  | .mocaVersion1 => "mocaVersion1"
  | .ieee80216WMAN => "ieee80216WMAN"
  | .adsl2plus => "adsl2plus"
  | .dvbRcsMacLayer => "dvbRcsMacLayer"
  | .dvbTdm => "dvbTdm"
  | .dvbRcsTdma => "dvbRcsTdma"
  | .x86Laps => "x86Laps"
  | .wwanPP => "wwanPP"
  | .wwanPP2 => "wwanPP2"
  | .voiceEBS => "voiceEBS"
  | .ifPwType => "ifPwType"
  | .ilan => "ilan"
  | .pip => "pip"
  | .aluELP => "aluELP"
  | .gpon => "gpon"
  | .vdsl2 => "vdsl2"
  | .capwapDot11Profile => "capwapDot11Profile"
  | .capwapDot11Bss => "capwapDot11Bss"
  | .capwapWtpVirtualRadio => "capwapWtpVirtualRadio"
  | .bits => "bits"
  | .docsCableUpstreamRfPort => "docsCableUpstreamRfPort"
  | .cableDownstreamRfPort => "cableDownstreamRfPort"
  | .vmwareVirtualNic => "vmwareVirtualNic"
  | .ieee802154 => "ieee802154"
  | .otnOdu => "otnOdu"
  | .otnOtu => "otnOtu"
  | .ifVfiType => "ifVfiType"
  | .g9981 => "g9981"
  | .g9982 => "g9982"
  | .g9983 => "g9983"
  | .aluEpon => "aluEpon"
  | .aluEponOnu => "aluEponOnu"
  | .aluEponPhysicalUni => "aluEponPhysicalUni"
  | .aluEponLogicalLink => "aluEponLogicalLink"
  | .aluGponOnu => "aluGponOnu"
  | .aluGponPhysicalUni => "aluGponPhysicalUni"
  | .vmwareNicTeam => "vmwareNicTeam"
  | .docsOfdmDownstream => "docsOfdmDownstream"
  | .docsOfdmaUpstream => "docsOfdmaUpstream"
  | .gfast => "gfast"
  | .sdci => "sdci"
  | .xboxWireless => "xboxWireless"
  | .fastdsl => "fastdsl"
  | .docsCableScte55d1FwdOob => "docsCableScte55d1FwdOob"
  | .docsCableScte55d1RetOob => "docsCableScte55d1RetOob"
  | .docsCableScte55d2DsOob => "docsCableScte55d2DsOob"
  | .docsCableScte55d2UsOob => "docsCableScte55d2UsOob"
  | .docsCableNdf => "docsCableNdf"
  | .docsCableNdr => "docsCableNdr"
  | .ptm => "ptm"
  | .ghn => "ghn"
  | .otnOtsi => "otnOtsi"
  | .otnOtuc => "otnOtuc"
  | .otnOduc => "otnOduc"
  | .otnOtsig => "otnOtsig"
  | .microwaveCarrierTermination => "microwaveCarrierTermination"
  | .microwaveRadioLinkTerminal => "microwaveRadioLinkTerminal"
  | .ieee8021axDrni => "ieee8021axDrni"
  | .ax25 => "ax25"
  | .ieee19061nanocom => "ieee19061nanocom"
  | .cpri => "cpri"
  | .omni => "omni"
  | .roe => "roe"
  | .p2pOverLan => "p2pOverLan"
  | .unknown => "unknown"

/-- The entries of the map in `ianaIfTypeFromString`. -/
def ianaIfTypeTable : List (String × IanaIfType) := [
  ("other", .other), ("regular1822", .regular1822), ("hdh1822", .hdh1822), ("ddnX25", .ddnX25),
  ("rfc877x25", .rfc877x25), ("ethernetCsmacd", .ethernetCsmacd),
  ("iso88023Csmacd", .iso88023Csmacd), ("iso88024TokenBus", .iso88024TokenBus),
  ("iso88025TokenRing", .iso88025TokenRing), ("iso88026Man", .iso88026Man), ("starLan", .starLan),
  ("proteon10Mbit", .proteon10Mbit), ("proteon80Mbit", .proteon80Mbit),
  ("hyperchannel", .hyperchannel), ("fddi", .fddi), ("lapb", .lapb), ("sdlc", .sdlc),
  ("ds1", .ds1), ("e1", .e1), ("basicISDN", .basicISDN), ("primaryISDN", .primaryISDN),
  ("propPointToPointSerial", .propPointToPointSerial), ("ppp", .ppp),
  ("softwareLoopback", .softwareLoopback), ("eon", .eon), ("ethernet3Mbit", .ethernet3Mbit),
  ("nsip", .nsip), ("slip", .slip), ("ultra", .ultra), ("ds3", .ds3), ("sip", .sip),
  ("frameRelay", .frameRelay), ("rs232", .rs232), ("para", .para), ("arcnet", .arcnet),
  ("arcnetPlus", .arcnetPlus), ("miox25", .miox25), ("sonet", .sonet), ("x25ple", .x25ple),
  ("iso88022llc", .iso88022llc), ("localTalk", .localTalk), ("smdsDxi", .smdsDxi),
  ("frameRelayService", .frameRelayService), ("v35", .v35), ("hssi", .hssi), ("hippi", .hippi),
  ("modem", .modem), ("aal5", .aal5), ("sonetPath", .sonetPath), ("sonetVT", .sonetVT),
  ("smdsIcip", .smdsIcip), ("propVirtual", .propVirtual), ("propMultiplexor", .propMultiplexor),
  ("ieee80212", .ieee80212), ("fibreChannel", .fibreChannel), ("hippiInterface", .hippiInterface),
  ("frameRelayInterconnect", .frameRelayInterconnect), ("aflane8023", .aflane8023),
  ("aflane8025", .aflane8025), ("cctEmul", .cctEmul), ("fastEther", .fastEther), ("isdn", .isdn),
  ("v11", .v11), ("v36", .v36), ("g703at64k", .g703at64k), ("g703at2mb", .g703at2mb),
  ("qllc", .qllc), ("fastEtherFX", .fastEtherFX), ("channel", .channel),
  ("ieee80211", .ieee80211), ("ibm370parChan", .ibm370parChan), ("escon", .escon),
  ("dlsw", .dlsw), ("isdns", .isdns), ("isdnu", .isdnu), ("lapd", .lapd), ("ipSwitch", .ipSwitch),
  ("rsrb", .rsrb), ("atmLogical", .atmLogical), ("ds0", .ds0), ("ds0Bundle", .ds0Bundle),
  ("bsc", .bsc), ("async", .async), ("cnr", .cnr), ("iso88025Dtr", .iso88025Dtr),
  ("eplrs", .eplrs), ("arap", .arap), ("propCnls", .propCnls), ("hostPad", .hostPad),
  ("termPad", .termPad), ("frameRelayMPI", .frameRelayMPI), ("x213", .x213), ("adsl", .adsl),
  ("radsl", .radsl), ("sdsl", .sdsl), ("vdsl", .vdsl), ("iso88025CRFPInt", .iso88025CRFPInt),
  ("myrinet", .myrinet), ("voiceEM", .voiceEM), ("voiceFXO", .voiceFXO), ("voiceFXS", .voiceFXS),
  ("voiceEncap", .voiceEncap), ("voiceOverIp", .voiceOverIp), ("atmDxi", .atmDxi),
  ("atmFuni", .atmFuni), ("atmIma", .atmIma), ("pppMultilinkBundle", .pppMultilinkBundle),
  ("ipOverCdlc", .ipOverCdlc), ("ipOverClaw", .ipOverClaw), ("stackToStack", .stackToStack),
  ("virtualIpAddress", .virtualIpAddress), ("mpc", .mpc), ("ipOverAtm", .ipOverAtm),
  ("iso88025Fiber", .iso88025Fiber), ("tdlc", .tdlc), ("gigabitEthernet", .gigabitEthernet),
  ("hdlc", .hdlc), ("lapf", .lapf), ("v37", .v37), ("x25mlp", .x25mlp),
  ("x25huntGroup", .x25huntGroup), ("transpHdlc", .transpHdlc), ("interleave", .interleave),
  ("fast", .fast), ("ip", .ip), ("docsCableMaclayer", .docsCableMaclayer),
  ("docsCableDownstream", .docsCableDownstream), ("docsCableUpstream", .docsCableUpstream),
  ("a12MppSwitch", .a12MppSwitch), ("tunnel", .tunnel), ("coffee", .coffee), ("ces", .ces),
  ("atmSubInterface", .atmSubInterface), ("l2vlan", .l2vlan), ("l3ipvlan", .l3ipvlan),
  ("l3ipxvlan", .l3ipxvlan), ("digitalPowerline", .digitalPowerline),
  ("mediaMailOverIp", .mediaMailOverIp), ("dtm", .dtm), ("dcn", .dcn), ("ipForward", .ipForward),
  ("msdsl", .msdsl), ("ieee1394", .ieee1394), ("if-gsn", .if_gsn),
  ("dvbRccMacLayer", .dvbRccMacLayer), ("dvbRccDownstream", .dvbRccDownstream),
  ("dvbRccUpstream", .dvbRccUpstream), ("atmVirtual", .atmVirtual), ("mplsTunnel", .mplsTunnel),
  ("srp", .srp), ("voiceOverAtm", .voiceOverAtm), ("voiceOverFrameRelay", .voiceOverFrameRelay),
  ("idsl", .idsl), ("compositeLink", .compositeLink), ("ss7SigLink", .ss7SigLink),
  ("propWirelessP2P", .propWirelessP2P), ("frForward", .frForward), ("rfc1483", .rfc1483),
  ("usb", .usb), ("ieee8023adLag", .ieee8023adLag), ("bgppolicyaccounting", .bgppolicyaccounting),
  ("frf16MfrBundle", .frf16MfrBundle), ("h323Gatekeeper", .h323Gatekeeper),
  ("h323Proxy", .h323Proxy), ("mpls", .mpls), ("mfSigLink", .mfSigLink), ("hdsl2", .hdsl2),
  ("shdsl", .shdsl), ("ds1FDL", .ds1FDL), ("pos", .pos), ("dvbAsiIn", .dvbAsiIn),
  ("dvbAsiOut", .dvbAsiOut), ("plc", .plc), ("nfas", .nfas), ("tr008", .tr008),
  ("gr303RDT", .gr303RDT), ("gr303IDT", .gr303IDT), ("isup", .isup),
  ("propDocsWirelessMaclayer", .propDocsWirelessMaclayer),
  ("propDocsWirelessDownstream", .propDocsWirelessDownstream),
  ("propDocsWirelessUpstream", .propDocsWirelessUpstream), ("hiperlan2", .hiperlan2),
  ("propBWAp2Mp", .propBWAp2Mp), ("sonetOverheadChannel", .sonetOverheadChannel),
  ("digitalWrapperOverheadChannel", .digitalWrapperOverheadChannel), ("aal2", .aal2),
  ("radioMAC", .radioMAC), ("atmRadio", .atmRadio), ("imt", .imt), ("mvl", .mvl),
  ("reachDSL", .reachDSL), ("frDlciEndPt", .frDlciEndPt), ("atmVciEndPt", .atmVciEndPt),
  ("opticalChannel", .opticalChannel), ("opticalTransport", .opticalTransport),
  ("propAtm", .propAtm), ("voiceOverCable", .voiceOverCable), ("infiniband", .infiniband),
  ("teLink", .teLink), ("q2931", .q2931), ("virtualTg", .virtualTg), ("sipTg", .sipTg),
  ("sipSig", .sipSig), ("docsCableUpstreamChannel", .docsCableUpstreamChannel),
  ("econet", .econet), ("pon155", .pon155), ("pon622", .pon622), ("bridge", .bridge),
  ("linegroup", .linegroup), ("voiceEMFGD", .voiceEMFGD), ("voiceFGDEANA", .voiceFGDEANA),
  ("voiceDID", .voiceDID), ("mpegTransport", .mpegTransport), ("sixToFour", .sixToFour),
  ("gtp", .gtp), ("pdnEtherLoop1", .pdnEtherLoop1), ("pdnEtherLoop2", .pdnEtherLoop2),
  ("opticalChannelGroup", .opticalChannelGroup), ("homepna", .homepna), ("gfp", .gfp),
  ("ciscoISLvlan", .ciscoISLvlan), ("actelisMetaLOOP", .actelisMetaLOOP), ("fcipLink", .fcipLink),
  ("rpr", .rpr), ("qam", .qam), ("lmp", .lmp), ("cblVectaStar", .cblVectaStar),
  ("docsCableMCmtsDownstream", .docsCableMCmtsDownstream), ("adsl2", .adsl2),
  ("macSecControlledIF", .macSecControlledIF), ("macSecUncontrolledIF", .macSecUncontrolledIF),
  ("aviciOpticalEther", .aviciOpticalEther), ("atmbond", .atmbond), ("voiceFGDOS", .voiceFGDOS),
  ("mocaVersion1", .mocaVersion1), ("ieee80216WMAN", .ieee80216WMAN), ("adsl2plus", .adsl2plus),
  ("dvbRcsMacLayer", .dvbRcsMacLayer), ("dvbTdm", .dvbTdm), ("dvbRcsTdma", .dvbRcsTdma),
  ("x86Laps", .x86Laps), ("wwanPP", .wwanPP), ("wwanPP2", .wwanPP2), ("voiceEBS", .voiceEBS),
  ("ifPwType", .ifPwType), ("ilan", .ilan), ("pip", .pip), ("aluELP", .aluELP), ("gpon", .gpon),
  ("vdsl2", .vdsl2), ("capwapDot11Profile", .capwapDot11Profile),
  ("capwapDot11Bss", .capwapDot11Bss), ("capwapWtpVirtualRadio", .capwapWtpVirtualRadio),
  ("bits", .bits), ("docsCableUpstreamRfPort", .docsCableUpstreamRfPort),
  ("cableDownstreamRfPort", .cableDownstreamRfPort), ("vmwareVirtualNic", .vmwareVirtualNic),
  ("ieee802154", .ieee802154), ("otnOdu", .otnOdu), ("otnOtu", .otnOtu),
  ("ifVfiType", .ifVfiType), ("g9981", .g9981), ("g9982", .g9982), ("g9983", .g9983),
  ("aluEpon", .aluEpon), ("aluEponOnu", .aluEponOnu), ("aluEponPhysicalUni", .aluEponPhysicalUni),
  ("aluEponLogicalLink", .aluEponLogicalLink), ("aluGponOnu", .aluGponOnu),
  ("aluGponPhysicalUni", .aluGponPhysicalUni), ("vmwareNicTeam", .vmwareNicTeam),
  ("docsOfdmDownstream", .docsOfdmDownstream), ("docsOfdmaUpstream", .docsOfdmaUpstream),
  ("gfast", .gfast), ("sdci", .sdci), ("xboxWireless", .xboxWireless), ("fastdsl", .fastdsl),
  ("docsCableScte55d1FwdOob", .docsCableScte55d1FwdOob),
  ("docsCableScte55d1RetOob", .docsCableScte55d1RetOob),
  ("docsCableScte55d2DsOob", .docsCableScte55d2DsOob),
  ("docsCableScte55d2UsOob", .docsCableScte55d2UsOob), ("docsCableNdf", .docsCableNdf),
  ("docsCableNdr", .docsCableNdr), ("ptm", .ptm), ("ghn", .ghn), ("otnOtsi", .otnOtsi),
  ("otnOtuc", .otnOtuc), ("otnOduc", .otnOduc), ("otnOtsig", .otnOtsig),
  ("microwaveCarrierTermination", .microwaveCarrierTermination),
  ("microwaveRadioLinkTerminal", .microwaveRadioLinkTerminal),
  ("ieee8021axDrni", .ieee8021axDrni), ("ax25", .ax25), ("ieee19061nanocom", .ieee19061nanocom),
  ("cpri", .cpri), ("omni", .omni), ("roe", .roe), ("p2pOverLan", .p2pOverLan)]

/-- The type of a name; `unknown` for a name that is not in the map. -/
def ianaIfTypeFromString (s : String) : IanaIfType :=
  (ianaIfTypeTable.lookup s).getD .unknown

/-! ### The two tables agree

Comparing the names pair by pair would take tens of thousands of string comparisons. That they are
distinct is checked on small numbers instead, with the numbers seen so far as the bits of one. -/

/-- A name as a number below `6701`. -/
private def nameCode (s : String) : ℕ :=
  s.toByteArray.data.toList.foldl (fun n b => 256 * n + b.toNat) 0 % 6701

/-- None of `ns` is a bit of `seen`, nor occurs twice. -/
private def distinctFrom (seen : ℕ) : List ℕ → Bool
  | [] => true
  | n :: ns => !seen.testBit n && distinctFrom (seen ||| 1 <<< n) ns

private theorem nodup_of_distinctFrom : ∀ (ns : List ℕ) (seen : ℕ), distinctFrom seen ns = true →
    ns.Nodup ∧ ∀ n ∈ ns, seen.testBit n = false
  | [], _, _ => by simp
  | n :: ns, seen, h => by
    simp only [distinctFrom, Bool.and_eq_true, Bool.not_eq_true'] at h
    obtain ⟨hnodup, hseen⟩ := nodup_of_distinctFrom _ _ h.2
    have hbit : ∀ m ∈ ns, seen.testBit m = false ∧ m ≠ n := fun m hm => by
      have := hseen m hm
      rw [Nat.testBit_or, Bool.or_eq_false_iff] at this
      refine ⟨this.1, ?_⟩
      rintro rfl
      simp [Nat.testBit_shiftLeft] at this
    refine ⟨List.nodup_cons.mpr ⟨fun hn => (hbit n hn).2 rfl, hnodup⟩, ?_⟩
    intro m hm
    rcases List.mem_cons.mp hm with rfl | hm
    · exact h.1
    · exact (hbit m hm).1

theorem nodup_ianaIfTypeTable : (ianaIfTypeTable.map Prod.fst).Nodup := by
  have h : ((ianaIfTypeTable.map Prod.fst).map nameCode).Nodup :=
    (nodup_of_distinctFrom _ 0 (by decide +kernel)).1
  exact List.Nodup.of_map _ h

/-- Every entry pairs a type with its own name. -/
theorem ianaIfTypeTable_eq :
    ianaIfTypeTable = (ianaIfTypeTable.map Prod.snd).map fun t => (ianaIfTypeToString t, t) := by
  decide +kernel

/-- Every type but `unknown` has an entry. -/
theorem mem_ianaIfTypeTable {t : IanaIfType} (h : t ≠ .unknown) :
    (ianaIfTypeToString t, t) ∈ ianaIfTypeTable := by
  have hindex : (ianaIfTypeTable.map Prod.snd).map IanaIfType.ctorIdx = List.range' 1 298 := by
    decide +kernel
  have hlt : t.ctorIdx < 299 := by cases t <;> decide
  have hpos : t.ctorIdx ≠ 0 := fun h0 => h (by rw [← IanaIfType.ofNat_ctorIdx t, h0]; rfl)
  have hrange : t.ctorIdx ∈ (ianaIfTypeTable.map Prod.snd).map IanaIfType.ctorIdx := by
    rw [hindex, List.mem_range'_1]
    omega
  obtain ⟨t', ht', heq⟩ := List.mem_map.mp hrange
  have hmem : t ∈ ianaIfTypeTable.map Prod.snd := by
    rwa [← IanaIfType.ofNat_ctorIdx t, ← heq, IanaIfType.ofNat_ctorIdx]
  rw [ianaIfTypeTable_eq]
  exact List.mem_map_of_mem (f := fun t => (ianaIfTypeToString t, t)) hmem

private theorem lookup_of_mem {α β : Type} [BEq α] [LawfulBEq α] {a : α} {b : β} :
    ∀ {l : List (α × β)}, (l.map Prod.fst).Nodup → (a, b) ∈ l → l.lookup a = some b
  | (c, d) :: l, hn, hm => by
    rw [List.map_cons, List.nodup_cons] at hn
    rcases List.mem_cons.mp hm with h' | h'
    · cases h'; simp
    · have hne : a ≠ c := by
        rintro rfl
        exact hn.1 (List.mem_map.mpr ⟨(a, b), h', rfl⟩)
      rw [List.lookup_cons, beq_false_of_ne hne]
      exact lookup_of_mem hn.2 h'

/-- **Reading back the name of a type.** -/
theorem ianaIfTypeFromString_toString {t : IanaIfType} (h : t ≠ .unknown) :
    ianaIfTypeFromString (ianaIfTypeToString t) = t := by
  rw [ianaIfTypeFromString, lookup_of_mem nodup_ianaIfTypeTable (mem_ianaIfTypeTable h)]
  rfl

/-- **Naming the type of a known name.** -/
theorem ianaIfTypeToString_fromString {s : String} (h : ianaIfTypeFromString s ≠ .unknown) :
    ianaIfTypeToString (ianaIfTypeFromString s) = s := by
  rw [ianaIfTypeFromString] at h ⊢
  cases hl : ianaIfTypeTable.lookup s with
  | none => simp [hl] at h
  | some t =>
    have hmem : (s, t) ∈ ianaIfTypeTable := by
      obtain ⟨l₁, l₂, hl', -⟩ := List.lookup_eq_some_iff.mp hl
      simp [hl']
    rw [ianaIfTypeTable_eq] at hmem
    obtain ⟨t', -, ht'⟩ := List.mem_map.mp hmem
    cases ht'
    rfl

end StelleriYang
