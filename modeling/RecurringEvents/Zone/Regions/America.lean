import RecurringEvents.Zone.Region

/-!
# Regions of America

The clocks of the regions since local mean time, as the tz database tells them (release 2025b). The
latest change stands first.
-/

namespace RecurringEvents.Region

/-- `America/Anchorage`. -/
def anchorage : Region where
  name := "America/Anchorage"
  first := ⟨50424, "LMT"⟩
  changes :=
    [⟨1173610800, -28800, "AKDT"⟩, ⟨1162116000, -32400, "AKST"⟩, ⟨1143975600, -28800, "AKDT"⟩,
     ⟨1130666400, -32400, "AKST"⟩, ⟨1112526000, -28800, "AKDT"⟩, ⟨1099216800, -32400, "AKST"⟩,
     ⟨1081076400, -28800, "AKDT"⟩, ⟨1067162400, -32400, "AKST"⟩, ⟨1049626800, -28800, "AKDT"⟩,
     ⟨1035712800, -32400, "AKST"⟩, ⟨1018177200, -28800, "AKDT"⟩, ⟨1004263200, -32400, "AKST"⟩,
     ⟨986122800, -28800, "AKDT"⟩, ⟨972813600, -32400, "AKST"⟩, ⟨954673200, -28800, "AKDT"⟩,
     ⟨941364000, -32400, "AKST"⟩, ⟨923223600, -28800, "AKDT"⟩, ⟨909309600, -32400, "AKST"⟩,
     ⟨891774000, -28800, "AKDT"⟩, ⟨877860000, -32400, "AKST"⟩, ⟨860324400, -28800, "AKDT"⟩,
     ⟨846410400, -32400, "AKST"⟩, ⟨828874800, -28800, "AKDT"⟩, ⟨814960800, -32400, "AKST"⟩,
     ⟨796820400, -28800, "AKDT"⟩, ⟨783511200, -32400, "AKST"⟩, ⟨765370800, -28800, "AKDT"⟩,
     ⟨752061600, -32400, "AKST"⟩, ⟨733921200, -28800, "AKDT"⟩, ⟨720007200, -32400, "AKST"⟩,
     ⟨702471600, -28800, "AKDT"⟩, ⟨688557600, -32400, "AKST"⟩, ⟨671022000, -28800, "AKDT"⟩,
     ⟨657108000, -32400, "AKST"⟩, ⟨638967600, -28800, "AKDT"⟩, ⟨625658400, -32400, "AKST"⟩,
     ⟨607518000, -28800, "AKDT"⟩, ⟨594208800, -32400, "AKST"⟩, ⟨576068400, -28800, "AKDT"⟩,
     ⟨562154400, -32400, "AKST"⟩, ⟨544618800, -28800, "AKDT"⟩, ⟨530704800, -32400, "AKST"⟩,
     ⟨514983600, -28800, "AKDT"⟩, ⟨499255200, -32400, "AKST"⟩, ⟨483534000, -28800, "AKDT"⟩,
     ⟨467805600, -32400, "AKST"⟩, ⟨452084400, -28800, "AKDT"⟩, ⟨439030800, -32400, "AKST"⟩,
     ⟨436359600, -32400, "YST"⟩, ⟨420033600, -32400, "AHDT"⟩, ⟨404910000, -36000, "AHST"⟩,
     ⟨388584000, -32400, "AHDT"⟩, ⟨372855600, -36000, "AHST"⟩, ⟨357134400, -32400, "AHDT"⟩,
     ⟨341406000, -36000, "AHST"⟩, ⟨325684800, -32400, "AHDT"⟩, ⟨309956400, -36000, "AHST"⟩,
     ⟨294235200, -32400, "AHDT"⟩, ⟨278506800, -36000, "AHST"⟩, ⟨262785600, -32400, "AHDT"⟩,
     ⟨247057200, -36000, "AHST"⟩, ⟨230731200, -32400, "AHDT"⟩, ⟨215607600, -36000, "AHST"⟩,
     ⟨199281600, -32400, "AHDT"⟩, ⟨183553200, -36000, "AHST"⟩, ⟨162388800, -32400, "AHDT"⟩,
     ⟨152103600, -36000, "AHST"⟩, ⟨126705600, -32400, "AHDT"⟩, ⟨120654000, -36000, "AHST"⟩,
     ⟨104932800, -32400, "AHDT"⟩, ⟨89204400, -36000, "AHST"⟩, ⟨73483200, -32400, "AHDT"⟩,
     ⟨57754800, -36000, "AHST"⟩, ⟨41428800, -32400, "AHDT"⟩, ⟨25700400, -36000, "AHST"⟩,
     ⟨9979200, -32400, "AHDT"⟩, ⟨-5749200, -36000, "AHST"⟩, ⟨-21470400, -32400, "AHDT"⟩,
     ⟨-86882400, -36000, "AHST"⟩, ⟨-765378000, -36000, "AST"⟩, ⟨-769395600, -32400, "APT"⟩,
     ⟨-880200000, -32400, "AWT"⟩, ⟨-2188951224, -36000, "AST"⟩, ⟨-3225223727, -35976, "LMT"⟩]
  later := .seasonal ⟨-32400, "AKST"⟩ ⟨-28800, "AKDT"⟩ ⟨3, 2, 0, 7200⟩ ⟨11, 1, 0, 7200⟩

/-- `America/Argentina/Buenos_Aires`. -/
def buenosAires : Region where
  name := "America/Argentina/Buenos_Aires"
  first := ⟨-14028, "LMT"⟩
  changes :=
    [⟨1237082400, -10800, "-03"⟩, ⟨1224385200, -7200, "-02"⟩, ⟨1205632800, -10800, "-03"⟩,
     ⟨1198983600, -7200, "-02"⟩, ⟨952052400, -10800, "-03"⟩, ⟨731469600, -10800, "-03"⟩,
     ⟨719377200, -7200, "-02"⟩, ⟨699415200, -10800, "-03"⟩, ⟨687927600, -7200, "-02"⟩,
     ⟨667965600, -10800, "-03"⟩, ⟨656478000, -7200, "-02"⟩, ⟨636516000, -10800, "-03"⟩,
     ⟨624423600, -7200, "-02"⟩, ⟨605066400, -10800, "-03"⟩, ⟨596948400, -7200, "-02"⟩,
     ⟨136605600, -10800, "-03"⟩, ⟨128142000, -7200, "-02"⟩, ⟨-7588800, -10800, "-03"⟩,
     ⟨-23317200, -14400, "-04"⟩, ⟨-39038400, -10800, "-03"⟩, ⟨-54766800, -14400, "-04"⟩,
     ⟨-71092800, -10800, "-03"⟩, ⟨-86821200, -14400, "-04"⟩, ⟨-101419200, -10800, "-03"⟩,
     ⟨-121122000, -14400, "-04"⟩, ⟨-132955200, -10800, "-03"⟩, ⟨-152658000, -14400, "-04"⟩,
     ⟨-164491200, -10800, "-03"⟩, ⟨-184194000, -14400, "-04"⟩, ⟨-190843200, -10800, "-03"⟩,
     ⟨-197326800, -14400, "-04"⟩, ⟨-733780800, -10800, "-03"⟩, ⟨-752274000, -14400, "-04"⟩,
     ⟨-827265600, -10800, "-03"⟩, ⟨-833749200, -14400, "-04"⟩, ⟨-890337600, -10800, "-03"⟩,
     ⟨-900882000, -14400, "-04"⟩, ⟨-931032000, -10800, "-03"⟩, ⟨-941576400, -14400, "-04"⟩,
     ⟨-952027200, -10800, "-03"⟩, ⟨-973198800, -14400, "-04"⟩, ⟨-983563200, -10800, "-03"⟩,
     ⟨-1004734800, -14400, "-04"⟩, ⟨-1015099200, -10800, "-03"⟩, ⟨-1036270800, -14400, "-04"⟩,
     ⟨-1046635200, -10800, "-03"⟩, ⟨-1067806800, -14400, "-04"⟩, ⟨-1078257600, -10800, "-03"⟩,
     ⟨-1099429200, -14400, "-04"⟩, ⟨-1109793600, -10800, "-03"⟩, ⟨-1130965200, -14400, "-04"⟩,
     ⟨-1141329600, -10800, "-03"⟩, ⟨-1162501200, -14400, "-04"⟩, ⟨-1172865600, -10800, "-03"⟩,
     ⟨-1194037200, -14400, "-04"⟩, ⟨-1205956800, -10800, "-03"⟩, ⟨-1222981200, -14400, "-04"⟩,
     ⟨-1233432000, -10800, "-03"⟩, ⟨-1567453392, -14400, "-04"⟩, ⟨-2372097972, -15408, "CMT"⟩]
  later := .steady ⟨-10800, "-03"⟩

/-- `America/Chicago`. -/
def chicago : Region where
  name := "America/Chicago"
  first := ⟨-21036, "LMT"⟩
  changes :=
    [⟨1173600000, -18000, "CDT"⟩, ⟨1162105200, -21600, "CST"⟩, ⟨1143964800, -18000, "CDT"⟩,
     ⟨1130655600, -21600, "CST"⟩, ⟨1112515200, -18000, "CDT"⟩, ⟨1099206000, -21600, "CST"⟩,
     ⟨1081065600, -18000, "CDT"⟩, ⟨1067151600, -21600, "CST"⟩, ⟨1049616000, -18000, "CDT"⟩,
     ⟨1035702000, -21600, "CST"⟩, ⟨1018166400, -18000, "CDT"⟩, ⟨1004252400, -21600, "CST"⟩,
     ⟨986112000, -18000, "CDT"⟩, ⟨972802800, -21600, "CST"⟩, ⟨954662400, -18000, "CDT"⟩,
     ⟨941353200, -21600, "CST"⟩, ⟨923212800, -18000, "CDT"⟩, ⟨909298800, -21600, "CST"⟩,
     ⟨891763200, -18000, "CDT"⟩, ⟨877849200, -21600, "CST"⟩, ⟨860313600, -18000, "CDT"⟩,
     ⟨846399600, -21600, "CST"⟩, ⟨828864000, -18000, "CDT"⟩, ⟨814950000, -21600, "CST"⟩,
     ⟨796809600, -18000, "CDT"⟩, ⟨783500400, -21600, "CST"⟩, ⟨765360000, -18000, "CDT"⟩,
     ⟨752050800, -21600, "CST"⟩, ⟨733910400, -18000, "CDT"⟩, ⟨719996400, -21600, "CST"⟩,
     ⟨702460800, -18000, "CDT"⟩, ⟨688546800, -21600, "CST"⟩, ⟨671011200, -18000, "CDT"⟩,
     ⟨657097200, -21600, "CST"⟩, ⟨638956800, -18000, "CDT"⟩, ⟨625647600, -21600, "CST"⟩,
     ⟨607507200, -18000, "CDT"⟩, ⟨594198000, -21600, "CST"⟩, ⟨576057600, -18000, "CDT"⟩,
     ⟨562143600, -21600, "CST"⟩, ⟨544608000, -18000, "CDT"⟩, ⟨530694000, -21600, "CST"⟩,
     ⟨514972800, -18000, "CDT"⟩, ⟨499244400, -21600, "CST"⟩, ⟨483523200, -18000, "CDT"⟩,
     ⟨467794800, -21600, "CST"⟩, ⟨452073600, -18000, "CDT"⟩, ⟨436345200, -21600, "CST"⟩,
     ⟨420019200, -18000, "CDT"⟩, ⟨404895600, -21600, "CST"⟩, ⟨388569600, -18000, "CDT"⟩,
     ⟨372841200, -21600, "CST"⟩, ⟨357120000, -18000, "CDT"⟩, ⟨341391600, -21600, "CST"⟩,
     ⟨325670400, -18000, "CDT"⟩, ⟨309942000, -21600, "CST"⟩, ⟨294220800, -18000, "CDT"⟩,
     ⟨278492400, -21600, "CST"⟩, ⟨262771200, -18000, "CDT"⟩, ⟨247042800, -21600, "CST"⟩,
     ⟨230716800, -18000, "CDT"⟩, ⟨215593200, -21600, "CST"⟩, ⟨199267200, -18000, "CDT"⟩,
     ⟨183538800, -21600, "CST"⟩, ⟨162374400, -18000, "CDT"⟩, ⟨152089200, -21600, "CST"⟩,
     ⟨126691200, -18000, "CDT"⟩, ⟨120639600, -21600, "CST"⟩, ⟨104918400, -18000, "CDT"⟩,
     ⟨89190000, -21600, "CST"⟩, ⟨73468800, -18000, "CDT"⟩, ⟨57740400, -21600, "CST"⟩,
     ⟨41414400, -18000, "CDT"⟩, ⟨25686000, -21600, "CST"⟩, ⟨9964800, -18000, "CDT"⟩,
     ⟨-5763600, -21600, "CST"⟩, ⟨-21484800, -18000, "CDT"⟩, ⟨-37213200, -21600, "CST"⟩,
     ⟨-52934400, -18000, "CDT"⟩, ⟨-68662800, -21600, "CST"⟩, ⟨-84384000, -18000, "CDT"⟩,
     ⟨-100112400, -21600, "CST"⟩, ⟨-116438400, -18000, "CDT"⟩, ⟨-131562000, -21600, "CST"⟩,
     ⟨-147888000, -18000, "CDT"⟩, ⟨-163616400, -21600, "CST"⟩, ⟨-179337600, -18000, "CDT"⟩,
     ⟨-195066000, -21600, "CST"⟩, ⟨-210787200, -18000, "CDT"⟩, ⟨-226515600, -21600, "CST"⟩,
     ⟨-242236800, -18000, "CDT"⟩, ⟨-257965200, -21600, "CST"⟩, ⟨-273686400, -18000, "CDT"⟩,
     ⟨-289414800, -21600, "CST"⟩, ⟨-305740800, -18000, "CDT"⟩, ⟨-321469200, -21600, "CST"⟩,
     ⟨-337190400, -18000, "CDT"⟩, ⟨-352918800, -21600, "CST"⟩, ⟨-368640000, -18000, "CDT"⟩,
     ⟨-384368400, -21600, "CST"⟩, ⟨-400089600, -18000, "CDT"⟩, ⟨-415818000, -21600, "CST"⟩,
     ⟨-431539200, -18000, "CDT"⟩, ⟨-447267600, -21600, "CST"⟩, ⟨-463593600, -18000, "CDT"⟩,
     ⟨-481741200, -21600, "CST"⟩, ⟨-495043200, -18000, "CDT"⟩, ⟨-513190800, -21600, "CST"⟩,
     ⟨-526492800, -18000, "CDT"⟩, ⟨-544640400, -21600, "CST"⟩, ⟨-557942400, -18000, "CDT"⟩,
     ⟨-576090000, -21600, "CST"⟩, ⟨-589392000, -18000, "CDT"⟩, ⟨-608144400, -21600, "CST"⟩,
     ⟨-620841600, -18000, "CDT"⟩, ⟨-639594000, -21600, "CST"⟩, ⟨-652896000, -18000, "CDT"⟩,
     ⟨-671043600, -21600, "CST"⟩, ⟨-684345600, -18000, "CDT"⟩, ⟨-702493200, -21600, "CST"⟩,
     ⟨-715795200, -18000, "CDT"⟩, ⟨-733942800, -21600, "CST"⟩, ⟨-747244800, -18000, "CDT"⟩,
     ⟨-765392400, -21600, "CST"⟩, ⟨-769395600, -18000, "CPT"⟩, ⟨-880214400, -18000, "CWT"⟩,
     ⟨-891795600, -21600, "CST"⟩, ⟨-905097600, -18000, "CDT"⟩, ⟨-923245200, -21600, "CST"⟩,
     ⟨-936547200, -18000, "CDT"⟩, ⟨-955299600, -21600, "CST"⟩, ⟨-967996800, -18000, "CDT"⟩,
     ⟨-986749200, -21600, "CST"⟩, ⟨-1000051200, -18000, "CDT"⟩, ⟨-1018198800, -21600, "CST"⟩,
     ⟨-1031500800, -18000, "CDT"⟩, ⟨-1045414800, -21600, "CST"⟩, ⟨-1067788800, -18000, "EST"⟩,
     ⟨-1081098000, -21600, "CST"⟩, ⟨-1094400000, -18000, "CDT"⟩, ⟨-1112547600, -21600, "CST"⟩,
     ⟨-1125849600, -18000, "CDT"⟩, ⟨-1144602000, -21600, "CST"⟩, ⟨-1157299200, -18000, "CDT"⟩,
     ⟨-1176051600, -21600, "CST"⟩, ⟨-1189353600, -18000, "CDT"⟩, ⟨-1207501200, -21600, "CST"⟩,
     ⟨-1220803200, -18000, "CDT"⟩, ⟨-1238950800, -21600, "CST"⟩, ⟨-1252252800, -18000, "CDT"⟩,
     ⟨-1270400400, -21600, "CST"⟩, ⟨-1283702400, -18000, "CDT"⟩, ⟨-1301850000, -21600, "CST"⟩,
     ⟨-1315152000, -18000, "CDT"⟩, ⟨-1333904400, -21600, "CST"⟩, ⟨-1347206400, -18000, "CDT"⟩,
     ⟨-1365354000, -21600, "CST"⟩, ⟨-1378656000, -18000, "CDT"⟩, ⟨-1396803600, -21600, "CST"⟩,
     ⟨-1410105600, -18000, "CDT"⟩, ⟨-1428253200, -21600, "CST"⟩, ⟨-1441555200, -18000, "CDT"⟩,
     ⟨-1459702800, -21600, "CST"⟩, ⟨-1473004800, -18000, "CDT"⟩, ⟨-1491757200, -21600, "CST"⟩,
     ⟨-1504454400, -18000, "CDT"⟩, ⟨-1520182800, -21600, "CST"⟩, ⟨-1538928000, -18000, "CDT"⟩,
     ⟨-1551632400, -21600, "CST"⟩, ⟨-1563724800, -18000, "CDT"⟩, ⟨-1583686800, -21600, "CST"⟩,
     ⟨-1601827200, -18000, "CDT"⟩, ⟨-1615136400, -21600, "CST"⟩, ⟨-1633276800, -18000, "CDT"⟩,
     ⟨-2717647200, -21600, "CST"⟩]
  later := .seasonal ⟨-21600, "CST"⟩ ⟨-18000, "CDT"⟩ ⟨3, 2, 0, 7200⟩ ⟨11, 1, 0, 7200⟩

/-- `America/Denver`. -/
def denver : Region where
  name := "America/Denver"
  first := ⟨-25196, "LMT"⟩
  changes :=
    [⟨1173603600, -21600, "MDT"⟩, ⟨1162108800, -25200, "MST"⟩, ⟨1143968400, -21600, "MDT"⟩,
     ⟨1130659200, -25200, "MST"⟩, ⟨1112518800, -21600, "MDT"⟩, ⟨1099209600, -25200, "MST"⟩,
     ⟨1081069200, -21600, "MDT"⟩, ⟨1067155200, -25200, "MST"⟩, ⟨1049619600, -21600, "MDT"⟩,
     ⟨1035705600, -25200, "MST"⟩, ⟨1018170000, -21600, "MDT"⟩, ⟨1004256000, -25200, "MST"⟩,
     ⟨986115600, -21600, "MDT"⟩, ⟨972806400, -25200, "MST"⟩, ⟨954666000, -21600, "MDT"⟩,
     ⟨941356800, -25200, "MST"⟩, ⟨923216400, -21600, "MDT"⟩, ⟨909302400, -25200, "MST"⟩,
     ⟨891766800, -21600, "MDT"⟩, ⟨877852800, -25200, "MST"⟩, ⟨860317200, -21600, "MDT"⟩,
     ⟨846403200, -25200, "MST"⟩, ⟨828867600, -21600, "MDT"⟩, ⟨814953600, -25200, "MST"⟩,
     ⟨796813200, -21600, "MDT"⟩, ⟨783504000, -25200, "MST"⟩, ⟨765363600, -21600, "MDT"⟩,
     ⟨752054400, -25200, "MST"⟩, ⟨733914000, -21600, "MDT"⟩, ⟨720000000, -25200, "MST"⟩,
     ⟨702464400, -21600, "MDT"⟩, ⟨688550400, -25200, "MST"⟩, ⟨671014800, -21600, "MDT"⟩,
     ⟨657100800, -25200, "MST"⟩, ⟨638960400, -21600, "MDT"⟩, ⟨625651200, -25200, "MST"⟩,
     ⟨607510800, -21600, "MDT"⟩, ⟨594201600, -25200, "MST"⟩, ⟨576061200, -21600, "MDT"⟩,
     ⟨562147200, -25200, "MST"⟩, ⟨544611600, -21600, "MDT"⟩, ⟨530697600, -25200, "MST"⟩,
     ⟨514976400, -21600, "MDT"⟩, ⟨499248000, -25200, "MST"⟩, ⟨483526800, -21600, "MDT"⟩,
     ⟨467798400, -25200, "MST"⟩, ⟨452077200, -21600, "MDT"⟩, ⟨436348800, -25200, "MST"⟩,
     ⟨420022800, -21600, "MDT"⟩, ⟨404899200, -25200, "MST"⟩, ⟨388573200, -21600, "MDT"⟩,
     ⟨372844800, -25200, "MST"⟩, ⟨357123600, -21600, "MDT"⟩, ⟨341395200, -25200, "MST"⟩,
     ⟨325674000, -21600, "MDT"⟩, ⟨309945600, -25200, "MST"⟩, ⟨294224400, -21600, "MDT"⟩,
     ⟨278496000, -25200, "MST"⟩, ⟨262774800, -21600, "MDT"⟩, ⟨247046400, -25200, "MST"⟩,
     ⟨230720400, -21600, "MDT"⟩, ⟨215596800, -25200, "MST"⟩, ⟨199270800, -21600, "MDT"⟩,
     ⟨183542400, -25200, "MST"⟩, ⟨162378000, -21600, "MDT"⟩, ⟨152092800, -25200, "MST"⟩,
     ⟨126694800, -21600, "MDT"⟩, ⟨120643200, -25200, "MST"⟩, ⟨104922000, -21600, "MDT"⟩,
     ⟨89193600, -25200, "MST"⟩, ⟨73472400, -21600, "MDT"⟩, ⟨57744000, -25200, "MST"⟩,
     ⟨41418000, -21600, "MDT"⟩, ⟨25689600, -25200, "MST"⟩, ⟨9968400, -21600, "MDT"⟩,
     ⟨-5760000, -25200, "MST"⟩, ⟨-21481200, -21600, "MDT"⟩, ⟨-37209600, -25200, "MST"⟩,
     ⟨-52930800, -21600, "MDT"⟩, ⟨-68659200, -25200, "MST"⟩, ⟨-84380400, -21600, "MDT"⟩,
     ⟨-100108800, -25200, "MST"⟩, ⟨-116434800, -21600, "MDT"⟩, ⟨-131558400, -25200, "MST"⟩,
     ⟨-147884400, -21600, "MDT"⟩, ⟨-765388800, -25200, "MST"⟩, ⟨-769395600, -21600, "MPT"⟩,
     ⟨-880210800, -21600, "MWT"⟩, ⟨-1534089600, -25200, "MST"⟩, ⟨-1538924400, -21600, "MDT"⟩,
     ⟨-1551628800, -25200, "MST"⟩, ⟨-1570374000, -21600, "MDT"⟩, ⟨-1583683200, -25200, "MST"⟩,
     ⟨-1601823600, -21600, "MDT"⟩, ⟨-1615132800, -25200, "MST"⟩, ⟨-1633273200, -21600, "MDT"⟩,
     ⟨-2717643600, -25200, "MST"⟩]
  later := .seasonal ⟨-25200, "MST"⟩ ⟨-21600, "MDT"⟩ ⟨3, 2, 0, 7200⟩ ⟨11, 1, 0, 7200⟩

/-- `America/Halifax`. -/
def halifax : Region where
  name := "America/Halifax"
  first := ⟨-15264, "LMT"⟩
  changes :=
    [⟨1173592800, -10800, "ADT"⟩, ⟨1162098000, -14400, "AST"⟩, ⟨1143957600, -10800, "ADT"⟩,
     ⟨1130648400, -14400, "AST"⟩, ⟨1112508000, -10800, "ADT"⟩, ⟨1099198800, -14400, "AST"⟩,
     ⟨1081058400, -10800, "ADT"⟩, ⟨1067144400, -14400, "AST"⟩, ⟨1049608800, -10800, "ADT"⟩,
     ⟨1035694800, -14400, "AST"⟩, ⟨1018159200, -10800, "ADT"⟩, ⟨1004245200, -14400, "AST"⟩,
     ⟨986104800, -10800, "ADT"⟩, ⟨972795600, -14400, "AST"⟩, ⟨954655200, -10800, "ADT"⟩,
     ⟨941346000, -14400, "AST"⟩, ⟨923205600, -10800, "ADT"⟩, ⟨909291600, -14400, "AST"⟩,
     ⟨891756000, -10800, "ADT"⟩, ⟨877842000, -14400, "AST"⟩, ⟨860306400, -10800, "ADT"⟩,
     ⟨846392400, -14400, "AST"⟩, ⟨828856800, -10800, "ADT"⟩, ⟨814942800, -14400, "AST"⟩,
     ⟨796802400, -10800, "ADT"⟩, ⟨783493200, -14400, "AST"⟩, ⟨765352800, -10800, "ADT"⟩,
     ⟨752043600, -14400, "AST"⟩, ⟨733903200, -10800, "ADT"⟩, ⟨719989200, -14400, "AST"⟩,
     ⟨702453600, -10800, "ADT"⟩, ⟨688539600, -14400, "AST"⟩, ⟨671004000, -10800, "ADT"⟩,
     ⟨657090000, -14400, "AST"⟩, ⟨638949600, -10800, "ADT"⟩, ⟨625640400, -14400, "AST"⟩,
     ⟨607500000, -10800, "ADT"⟩, ⟨594190800, -14400, "AST"⟩, ⟨576050400, -10800, "ADT"⟩,
     ⟨562136400, -14400, "AST"⟩, ⟨544600800, -10800, "ADT"⟩, ⟨530686800, -14400, "AST"⟩,
     ⟨514965600, -10800, "ADT"⟩, ⟨499237200, -14400, "AST"⟩, ⟨483516000, -10800, "ADT"⟩,
     ⟨467787600, -14400, "AST"⟩, ⟨452066400, -10800, "ADT"⟩, ⟨436338000, -14400, "AST"⟩,
     ⟨420012000, -10800, "ADT"⟩, ⟨404888400, -14400, "AST"⟩, ⟨388562400, -10800, "ADT"⟩,
     ⟨372834000, -14400, "AST"⟩, ⟨357112800, -10800, "ADT"⟩, ⟨341384400, -14400, "AST"⟩,
     ⟨325663200, -10800, "ADT"⟩, ⟨309934800, -14400, "AST"⟩, ⟨294213600, -10800, "ADT"⟩,
     ⟨278485200, -14400, "AST"⟩, ⟨262764000, -10800, "ADT"⟩, ⟨247035600, -14400, "AST"⟩,
     ⟨230709600, -10800, "ADT"⟩, ⟨215586000, -14400, "AST"⟩, ⟨199260000, -10800, "ADT"⟩,
     ⟨183531600, -14400, "AST"⟩, ⟨167810400, -10800, "ADT"⟩, ⟨152082000, -14400, "AST"⟩,
     ⟨136360800, -10800, "ADT"⟩, ⟨120632400, -14400, "AST"⟩, ⟨104911200, -10800, "ADT"⟩,
     ⟨89182800, -14400, "AST"⟩, ⟨73461600, -10800, "ADT"⟩, ⟨57733200, -14400, "AST"⟩,
     ⟨41407200, -10800, "ADT"⟩, ⟨25678800, -14400, "AST"⟩, ⟨9957600, -10800, "ADT"⟩,
     ⟨-5770800, -14400, "AST"⟩, ⟨-21492000, -10800, "ADT"⟩, ⟨-37220400, -14400, "AST"⟩,
     ⟨-52941600, -10800, "ADT"⟩, ⟨-68670000, -14400, "AST"⟩, ⟨-84391200, -10800, "ADT"⟩,
     ⟨-100119600, -14400, "AST"⟩, ⟨-116445600, -10800, "ADT"⟩, ⟨-131569200, -14400, "AST"⟩,
     ⟨-147895200, -10800, "ADT"⟩, ⟨-163623600, -14400, "AST"⟩, ⟨-179344800, -10800, "ADT"⟩,
     ⟨-195073200, -14400, "AST"⟩, ⟨-210794400, -10800, "ADT"⟩, ⟨-226522800, -14400, "AST"⟩,
     ⟨-242244000, -10800, "ADT"⟩, ⟨-323895600, -14400, "AST"⟩, ⟨-337197600, -10800, "ADT"⟩,
     ⟨-355345200, -14400, "AST"⟩, ⟨-368647200, -10800, "ADT"⟩, ⟨-386794800, -14400, "AST"⟩,
     ⟨-400096800, -10800, "ADT"⟩, ⟨-418244400, -14400, "AST"⟩, ⟨-431546400, -10800, "ADT"⟩,
     ⟨-481748400, -14400, "AST"⟩, ⟨-495050400, -10800, "ADT"⟩, ⟨-513198000, -14400, "AST"⟩,
     ⟨-526500000, -10800, "ADT"⟩, ⟨-544647600, -14400, "AST"⟩, ⟨-557949600, -10800, "ADT"⟩,
     ⟨-576097200, -14400, "AST"⟩, ⟨-589399200, -10800, "ADT"⟩, ⟨-639601200, -14400, "AST"⟩,
     ⟨-652903200, -10800, "ADT"⟩, ⟨-671050800, -14400, "AST"⟩, ⟨-684352800, -10800, "ADT"⟩,
     ⟨-702500400, -14400, "AST"⟩, ⟨-715802400, -10800, "ADT"⟩, ⟨-733950000, -14400, "AST"⟩,
     ⟨-747252000, -10800, "ADT"⟩, ⟨-765399600, -14400, "AST"⟩, ⟨-769395600, -10800, "APT"⟩,
     ⟨-880221600, -10800, "AWT"⟩, ⟨-891723600, -14400, "AST"⟩, ⟨-904507200, -10800, "ADT"⟩,
     ⟨-923173200, -14400, "AST"⟩, ⟨-935956800, -10800, "ADT"⟩, ⟨-955227600, -14400, "AST"⟩,
     ⟨-965592000, -10800, "ADT"⟩, ⟨-986677200, -14400, "AST"⟩, ⟨-999460800, -10800, "ADT"⟩,
     ⟨-1018126800, -14400, "AST"⟩, ⟨-1030910400, -10800, "ADT"⟩, ⟨-1050786000, -14400, "AST"⟩,
     ⟨-1059854400, -10800, "ADT"⟩, ⟨-1081026000, -14400, "AST"⟩, ⟨-1091390400, -10800, "ADT"⟩,
     ⟨-1113771600, -14400, "AST"⟩, ⟨-1124049600, -10800, "ADT"⟩, ⟨-1143925200, -14400, "AST"⟩,
     ⟨-1157313600, -10800, "ADT"⟩, ⟨-1175979600, -14400, "AST"⟩, ⟨-1188763200, -10800, "ADT"⟩,
     ⟨-1207429200, -14400, "AST"⟩, ⟨-1219608000, -10800, "ADT"⟩, ⟨-1240088400, -14400, "AST"⟩,
     ⟨-1251057600, -10800, "ADT"⟩, ⟨-1272661200, -14400, "AST"⟩, ⟨-1282507200, -10800, "ADT"⟩,
     ⟨-1303678800, -14400, "AST"⟩, ⟨-1313956800, -10800, "ADT"⟩, ⟨-1333832400, -14400, "AST"⟩,
     ⟨-1346616000, -10800, "ADT"⟩, ⟨-1366491600, -14400, "AST"⟩, ⟨-1376856000, -10800, "ADT"⟩,
     ⟨-1396731600, -14400, "AST"⟩, ⟨-1409515200, -10800, "ADT"⟩, ⟨-1429390800, -14400, "AST"⟩,
     ⟨-1440964800, -10800, "ADT"⟩, ⟨-1461963600, -14400, "AST"⟩, ⟨-1472414400, -10800, "ADT"⟩,
     ⟨-1493413200, -14400, "AST"⟩, ⟨-1504468800, -10800, "ADT"⟩, ⟨-1524949200, -14400, "AST"⟩,
     ⟨-1535486400, -10800, "ADT"⟩, ⟨-1557090000, -14400, "AST"⟩, ⟨-1566763200, -10800, "ADT"⟩,
     ⟨-1615143600, -14400, "AST"⟩, ⟨-1632074400, -10800, "ADT"⟩, ⟨-1680469200, -14400, "AST"⟩,
     ⟨-1696276800, -10800, "ADT"⟩, ⟨-2131645536, -14400, "AST"⟩]
  later := .seasonal ⟨-14400, "AST"⟩ ⟨-10800, "ADT"⟩ ⟨3, 2, 0, 7200⟩ ⟨11, 1, 0, 7200⟩

/-- `America/Los_Angeles`. -/
def losAngeles : Region where
  name := "America/Los_Angeles"
  first := ⟨-28378, "LMT"⟩
  changes :=
    [⟨1173607200, -25200, "PDT"⟩, ⟨1162112400, -28800, "PST"⟩, ⟨1143972000, -25200, "PDT"⟩,
     ⟨1130662800, -28800, "PST"⟩, ⟨1112522400, -25200, "PDT"⟩, ⟨1099213200, -28800, "PST"⟩,
     ⟨1081072800, -25200, "PDT"⟩, ⟨1067158800, -28800, "PST"⟩, ⟨1049623200, -25200, "PDT"⟩,
     ⟨1035709200, -28800, "PST"⟩, ⟨1018173600, -25200, "PDT"⟩, ⟨1004259600, -28800, "PST"⟩,
     ⟨986119200, -25200, "PDT"⟩, ⟨972810000, -28800, "PST"⟩, ⟨954669600, -25200, "PDT"⟩,
     ⟨941360400, -28800, "PST"⟩, ⟨923220000, -25200, "PDT"⟩, ⟨909306000, -28800, "PST"⟩,
     ⟨891770400, -25200, "PDT"⟩, ⟨877856400, -28800, "PST"⟩, ⟨860320800, -25200, "PDT"⟩,
     ⟨846406800, -28800, "PST"⟩, ⟨828871200, -25200, "PDT"⟩, ⟨814957200, -28800, "PST"⟩,
     ⟨796816800, -25200, "PDT"⟩, ⟨783507600, -28800, "PST"⟩, ⟨765367200, -25200, "PDT"⟩,
     ⟨752058000, -28800, "PST"⟩, ⟨733917600, -25200, "PDT"⟩, ⟨720003600, -28800, "PST"⟩,
     ⟨702468000, -25200, "PDT"⟩, ⟨688554000, -28800, "PST"⟩, ⟨671018400, -25200, "PDT"⟩,
     ⟨657104400, -28800, "PST"⟩, ⟨638964000, -25200, "PDT"⟩, ⟨625654800, -28800, "PST"⟩,
     ⟨607514400, -25200, "PDT"⟩, ⟨594205200, -28800, "PST"⟩, ⟨576064800, -25200, "PDT"⟩,
     ⟨562150800, -28800, "PST"⟩, ⟨544615200, -25200, "PDT"⟩, ⟨530701200, -28800, "PST"⟩,
     ⟨514980000, -25200, "PDT"⟩, ⟨499251600, -28800, "PST"⟩, ⟨483530400, -25200, "PDT"⟩,
     ⟨467802000, -28800, "PST"⟩, ⟨452080800, -25200, "PDT"⟩, ⟨436352400, -28800, "PST"⟩,
     ⟨420026400, -25200, "PDT"⟩, ⟨404902800, -28800, "PST"⟩, ⟨388576800, -25200, "PDT"⟩,
     ⟨372848400, -28800, "PST"⟩, ⟨357127200, -25200, "PDT"⟩, ⟨341398800, -28800, "PST"⟩,
     ⟨325677600, -25200, "PDT"⟩, ⟨309949200, -28800, "PST"⟩, ⟨294228000, -25200, "PDT"⟩,
     ⟨278499600, -28800, "PST"⟩, ⟨262778400, -25200, "PDT"⟩, ⟨247050000, -28800, "PST"⟩,
     ⟨230724000, -25200, "PDT"⟩, ⟨215600400, -28800, "PST"⟩, ⟨199274400, -25200, "PDT"⟩,
     ⟨183546000, -28800, "PST"⟩, ⟨162381600, -25200, "PDT"⟩, ⟨152096400, -28800, "PST"⟩,
     ⟨126698400, -25200, "PDT"⟩, ⟨120646800, -28800, "PST"⟩, ⟨104925600, -25200, "PDT"⟩,
     ⟨89197200, -28800, "PST"⟩, ⟨73476000, -25200, "PDT"⟩, ⟨57747600, -28800, "PST"⟩,
     ⟨41421600, -25200, "PDT"⟩, ⟨25693200, -28800, "PST"⟩, ⟨9972000, -25200, "PDT"⟩,
     ⟨-5756400, -28800, "PST"⟩, ⟨-21477600, -25200, "PDT"⟩, ⟨-37206000, -28800, "PST"⟩,
     ⟨-52927200, -25200, "PDT"⟩, ⟨-68655600, -28800, "PST"⟩, ⟨-84376800, -25200, "PDT"⟩,
     ⟨-100105200, -28800, "PST"⟩, ⟨-116434800, -25200, "PDT"⟩, ⟨-131554800, -28800, "PST"⟩,
     ⟨-147884400, -25200, "PDT"⟩, ⟨-163609200, -28800, "PST"⟩, ⟨-179334000, -25200, "PDT"⟩,
     ⟨-195058800, -28800, "PST"⟩, ⟨-210783600, -25200, "PDT"⟩, ⟨-226508400, -28800, "PST"⟩,
     ⟨-242233200, -25200, "PDT"⟩, ⟨-260982000, -28800, "PST"⟩, ⟨-273682800, -25200, "PDT"⟩,
     ⟨-292431600, -28800, "PST"⟩, ⟨-305737200, -25200, "PDT"⟩, ⟨-323881200, -28800, "PST"⟩,
     ⟨-337186800, -25200, "PDT"⟩, ⟨-355330800, -28800, "PST"⟩, ⟨-368636400, -25200, "PDT"⟩,
     ⟨-386780400, -28800, "PST"⟩, ⟨-400086000, -25200, "PDT"⟩, ⟨-418230000, -28800, "PST"⟩,
     ⟨-431535600, -25200, "PDT"⟩, ⟨-450284400, -28800, "PST"⟩, ⟨-463590000, -25200, "PDT"⟩,
     ⟨-481734000, -28800, "PST"⟩, ⟨-495039600, -25200, "PDT"⟩, ⟨-513183600, -28800, "PST"⟩,
     ⟨-526489200, -25200, "PDT"⟩, ⟨-544633200, -28800, "PST"⟩, ⟨-557938800, -25200, "PDT"⟩,
     ⟨-576082800, -28800, "PST"⟩, ⟨-589388400, -25200, "PDT"⟩, ⟨-608137200, -28800, "PST"⟩,
     ⟨-620838000, -25200, "PDT"⟩, ⟨-662655600, -28800, "PST"⟩, ⟨-687967140, -25200, "PDT"⟩,
     ⟨-765385200, -28800, "PST"⟩, ⟨-769395600, -25200, "PPT"⟩, ⟨-880207200, -25200, "PWT"⟩,
     ⟨-1583679600, -28800, "PST"⟩, ⟨-1601820000, -25200, "PDT"⟩, ⟨-1615129200, -28800, "PST"⟩,
     ⟨-1633269600, -25200, "PDT"⟩, ⟨-2717640000, -28800, "PST"⟩]
  later := .seasonal ⟨-28800, "PST"⟩ ⟨-25200, "PDT"⟩ ⟨3, 2, 0, 7200⟩ ⟨11, 1, 0, 7200⟩

/-- `America/Mexico_City`. -/
def mexicoCity : Region where
  name := "America/Mexico_City"
  first := ⟨-23796, "LMT"⟩
  changes :=
    [⟨1667113200, -21600, "CST"⟩, ⟨1648972800, -18000, "CDT"⟩, ⟨1635663600, -21600, "CST"⟩,
     ⟨1617523200, -18000, "CDT"⟩, ⟨1603609200, -21600, "CST"⟩, ⟨1586073600, -18000, "CDT"⟩,
     ⟨1572159600, -21600, "CST"⟩, ⟨1554624000, -18000, "CDT"⟩, ⟨1540710000, -21600, "CST"⟩,
     ⟨1522569600, -18000, "CDT"⟩, ⟨1509260400, -21600, "CST"⟩, ⟨1491120000, -18000, "CDT"⟩,
     ⟨1477810800, -21600, "CST"⟩, ⟨1459670400, -18000, "CDT"⟩, ⟨1445756400, -21600, "CST"⟩,
     ⟨1428220800, -18000, "CDT"⟩, ⟨1414306800, -21600, "CST"⟩, ⟨1396771200, -18000, "CDT"⟩,
     ⟨1382857200, -21600, "CST"⟩, ⟨1365321600, -18000, "CDT"⟩, ⟨1351407600, -21600, "CST"⟩,
     ⟨1333267200, -18000, "CDT"⟩, ⟨1319958000, -21600, "CST"⟩, ⟨1301817600, -18000, "CDT"⟩,
     ⟨1288508400, -21600, "CST"⟩, ⟨1270368000, -18000, "CDT"⟩, ⟨1256454000, -21600, "CST"⟩,
     ⟨1238918400, -18000, "CDT"⟩, ⟨1225004400, -21600, "CST"⟩, ⟨1207468800, -18000, "CDT"⟩,
     ⟨1193554800, -21600, "CST"⟩, ⟨1175414400, -18000, "CDT"⟩, ⟨1162105200, -21600, "CST"⟩,
     ⟨1143964800, -18000, "CDT"⟩, ⟨1130655600, -21600, "CST"⟩, ⟨1112515200, -18000, "CDT"⟩,
     ⟨1099206000, -21600, "CST"⟩, ⟨1081065600, -18000, "CDT"⟩, ⟨1067151600, -21600, "CST"⟩,
     ⟨1049616000, -18000, "CDT"⟩, ⟨1035702000, -21600, "CST"⟩, ⟨1018166400, -18000, "CDT"⟩,
     ⟨1001833200, -21600, "CST"⟩, ⟨989136000, -18000, "CDT"⟩, ⟨972802800, -21600, "CST"⟩,
     ⟨954662400, -18000, "CDT"⟩, ⟨941353200, -21600, "CST"⟩, ⟨923212800, -18000, "CDT"⟩,
     ⟨909298800, -21600, "CST"⟩, ⟨891763200, -18000, "CDT"⟩, ⟨877849200, -21600, "CST"⟩,
     ⟨860313600, -18000, "CDT"⟩, ⟨846399600, -21600, "CST"⟩, ⟨828864000, -18000, "CDT"⟩,
     ⟨-612990000, -21600, "CST"⟩, ⟨-627501600, -18000, "CDT"⟩, ⟨-810068400, -21600, "CST"⟩,
     ⟨-821901600, -18000, "CWT"⟩, ⟨-907354800, -21600, "CST"⟩, ⟨-917114400, -18000, "CDT"⟩,
     ⟨-963169200, -21600, "CST"⟩, ⟨-975261600, -18000, "CDT"⟩, ⟨-1191344400, -21600, "CST"⟩,
     ⟨-1207159200, -25200, "MST"⟩, ⟨-1220461200, -21600, "MDT"⟩, ⟨-1234807200, -25200, "MST"⟩,
     ⟨-1343149200, -21600, "CST"⟩, ⟨-1514739600, -25200, "MST"⟩]
  later := .steady ⟨-21600, "CST"⟩

/-- `America/New_York`. -/
def newYork : Region where
  name := "America/New_York"
  first := ⟨-17762, "LMT"⟩
  changes :=
    [⟨1173596400, -14400, "EDT"⟩, ⟨1162101600, -18000, "EST"⟩, ⟨1143961200, -14400, "EDT"⟩,
     ⟨1130652000, -18000, "EST"⟩, ⟨1112511600, -14400, "EDT"⟩, ⟨1099202400, -18000, "EST"⟩,
     ⟨1081062000, -14400, "EDT"⟩, ⟨1067148000, -18000, "EST"⟩, ⟨1049612400, -14400, "EDT"⟩,
     ⟨1035698400, -18000, "EST"⟩, ⟨1018162800, -14400, "EDT"⟩, ⟨1004248800, -18000, "EST"⟩,
     ⟨986108400, -14400, "EDT"⟩, ⟨972799200, -18000, "EST"⟩, ⟨954658800, -14400, "EDT"⟩,
     ⟨941349600, -18000, "EST"⟩, ⟨923209200, -14400, "EDT"⟩, ⟨909295200, -18000, "EST"⟩,
     ⟨891759600, -14400, "EDT"⟩, ⟨877845600, -18000, "EST"⟩, ⟨860310000, -14400, "EDT"⟩,
     ⟨846396000, -18000, "EST"⟩, ⟨828860400, -14400, "EDT"⟩, ⟨814946400, -18000, "EST"⟩,
     ⟨796806000, -14400, "EDT"⟩, ⟨783496800, -18000, "EST"⟩, ⟨765356400, -14400, "EDT"⟩,
     ⟨752047200, -18000, "EST"⟩, ⟨733906800, -14400, "EDT"⟩, ⟨719992800, -18000, "EST"⟩,
     ⟨702457200, -14400, "EDT"⟩, ⟨688543200, -18000, "EST"⟩, ⟨671007600, -14400, "EDT"⟩,
     ⟨657093600, -18000, "EST"⟩, ⟨638953200, -14400, "EDT"⟩, ⟨625644000, -18000, "EST"⟩,
     ⟨607503600, -14400, "EDT"⟩, ⟨594194400, -18000, "EST"⟩, ⟨576054000, -14400, "EDT"⟩,
     ⟨562140000, -18000, "EST"⟩, ⟨544604400, -14400, "EDT"⟩, ⟨530690400, -18000, "EST"⟩,
     ⟨514969200, -14400, "EDT"⟩, ⟨499240800, -18000, "EST"⟩, ⟨483519600, -14400, "EDT"⟩,
     ⟨467791200, -18000, "EST"⟩, ⟨452070000, -14400, "EDT"⟩, ⟨436341600, -18000, "EST"⟩,
     ⟨420015600, -14400, "EDT"⟩, ⟨404892000, -18000, "EST"⟩, ⟨388566000, -14400, "EDT"⟩,
     ⟨372837600, -18000, "EST"⟩, ⟨357116400, -14400, "EDT"⟩, ⟨341388000, -18000, "EST"⟩,
     ⟨325666800, -14400, "EDT"⟩, ⟨309938400, -18000, "EST"⟩, ⟨294217200, -14400, "EDT"⟩,
     ⟨278488800, -18000, "EST"⟩, ⟨262767600, -14400, "EDT"⟩, ⟨247039200, -18000, "EST"⟩,
     ⟨230713200, -14400, "EDT"⟩, ⟨215589600, -18000, "EST"⟩, ⟨199263600, -14400, "EDT"⟩,
     ⟨183535200, -18000, "EST"⟩, ⟨162370800, -14400, "EDT"⟩, ⟨152085600, -18000, "EST"⟩,
     ⟨126687600, -14400, "EDT"⟩, ⟨120636000, -18000, "EST"⟩, ⟨104914800, -14400, "EDT"⟩,
     ⟨89186400, -18000, "EST"⟩, ⟨73465200, -14400, "EDT"⟩, ⟨57736800, -18000, "EST"⟩,
     ⟨41410800, -14400, "EDT"⟩, ⟨25682400, -18000, "EST"⟩, ⟨9961200, -14400, "EDT"⟩,
     ⟨-5767200, -18000, "EST"⟩, ⟨-21488400, -14400, "EDT"⟩, ⟨-37216800, -18000, "EST"⟩,
     ⟨-52938000, -14400, "EDT"⟩, ⟨-68666400, -18000, "EST"⟩, ⟨-84387600, -14400, "EDT"⟩,
     ⟨-100116000, -18000, "EST"⟩, ⟨-116442000, -14400, "EDT"⟩, ⟨-131565600, -18000, "EST"⟩,
     ⟨-147891600, -14400, "EDT"⟩, ⟨-163620000, -18000, "EST"⟩, ⟨-179341200, -14400, "EDT"⟩,
     ⟨-195069600, -18000, "EST"⟩, ⟨-210790800, -14400, "EDT"⟩, ⟨-226519200, -18000, "EST"⟩,
     ⟨-242240400, -14400, "EDT"⟩, ⟨-257968800, -18000, "EST"⟩, ⟨-273690000, -14400, "EDT"⟩,
     ⟨-289418400, -18000, "EST"⟩, ⟨-305744400, -14400, "EDT"⟩, ⟨-321472800, -18000, "EST"⟩,
     ⟨-337194000, -14400, "EDT"⟩, ⟨-352922400, -18000, "EST"⟩, ⟨-368643600, -14400, "EDT"⟩,
     ⟨-384372000, -18000, "EST"⟩, ⟨-400093200, -14400, "EDT"⟩, ⟨-415821600, -18000, "EST"⟩,
     ⟨-431542800, -14400, "EDT"⟩, ⟨-447271200, -18000, "EST"⟩, ⟨-463597200, -14400, "EDT"⟩,
     ⟨-481744800, -18000, "EST"⟩, ⟨-495046800, -14400, "EDT"⟩, ⟨-513194400, -18000, "EST"⟩,
     ⟨-526496400, -14400, "EDT"⟩, ⟨-544644000, -18000, "EST"⟩, ⟨-557946000, -14400, "EDT"⟩,
     ⟨-576093600, -18000, "EST"⟩, ⟨-589395600, -14400, "EDT"⟩, ⟨-608148000, -18000, "EST"⟩,
     ⟨-620845200, -14400, "EDT"⟩, ⟨-639597600, -18000, "EST"⟩, ⟨-652899600, -14400, "EDT"⟩,
     ⟨-671047200, -18000, "EST"⟩, ⟨-684349200, -14400, "EDT"⟩, ⟨-702496800, -18000, "EST"⟩,
     ⟨-715798800, -14400, "EDT"⟩, ⟨-733946400, -18000, "EST"⟩, ⟨-747248400, -14400, "EDT"⟩,
     ⟨-765396000, -18000, "EST"⟩, ⟨-769395600, -14400, "EPT"⟩, ⟨-880218000, -14400, "EWT"⟩,
     ⟨-891799200, -18000, "EST"⟩, ⟨-905101200, -14400, "EDT"⟩, ⟨-923248800, -18000, "EST"⟩,
     ⟨-936550800, -14400, "EDT"⟩, ⟨-955303200, -18000, "EST"⟩, ⟨-968000400, -14400, "EDT"⟩,
     ⟨-986752800, -18000, "EST"⟩, ⟨-1000054800, -14400, "EDT"⟩, ⟨-1018202400, -18000, "EST"⟩,
     ⟨-1031504400, -14400, "EDT"⟩, ⟨-1049652000, -18000, "EST"⟩, ⟨-1062954000, -14400, "EDT"⟩,
     ⟨-1081101600, -18000, "EST"⟩, ⟨-1094403600, -14400, "EDT"⟩, ⟨-1112551200, -18000, "EST"⟩,
     ⟨-1125853200, -14400, "EDT"⟩, ⟨-1144605600, -18000, "EST"⟩, ⟨-1157302800, -14400, "EDT"⟩,
     ⟨-1176055200, -18000, "EST"⟩, ⟨-1189357200, -14400, "EDT"⟩, ⟨-1207504800, -18000, "EST"⟩,
     ⟨-1220806800, -14400, "EDT"⟩, ⟨-1238954400, -18000, "EST"⟩, ⟨-1252256400, -14400, "EDT"⟩,
     ⟨-1270404000, -18000, "EST"⟩, ⟨-1283706000, -14400, "EDT"⟩, ⟨-1301853600, -18000, "EST"⟩,
     ⟨-1315155600, -14400, "EDT"⟩, ⟨-1333908000, -18000, "EST"⟩, ⟨-1347210000, -14400, "EDT"⟩,
     ⟨-1365357600, -18000, "EST"⟩, ⟨-1378659600, -14400, "EDT"⟩, ⟨-1396807200, -18000, "EST"⟩,
     ⟨-1410109200, -14400, "EDT"⟩, ⟨-1428256800, -18000, "EST"⟩, ⟨-1441558800, -14400, "EDT"⟩,
     ⟨-1459706400, -18000, "EST"⟩, ⟨-1473008400, -14400, "EDT"⟩, ⟨-1491760800, -18000, "EST"⟩,
     ⟨-1504458000, -14400, "EDT"⟩, ⟨-1523210400, -18000, "EST"⟩, ⟨-1536512400, -14400, "EDT"⟩,
     ⟨-1551636000, -18000, "EST"⟩, ⟨-1570381200, -14400, "EDT"⟩, ⟨-1583690400, -18000, "EST"⟩,
     ⟨-1601830800, -14400, "EDT"⟩, ⟨-1615140000, -18000, "EST"⟩, ⟨-1633280400, -14400, "EDT"⟩,
     ⟨-2717650800, -18000, "EST"⟩]
  later := .seasonal ⟨-18000, "EST"⟩ ⟨-14400, "EDT"⟩ ⟨3, 2, 0, 7200⟩ ⟨11, 1, 0, 7200⟩

/-- `America/Nuuk`. -/
def nuuk : Region where
  name := "America/Nuuk"
  first := ⟨-12416, "LMT"⟩
  changes :=
    [⟨1698541200, -7200, "-02"⟩, ⟨1679792400, -7200, "-02"⟩, ⟨1667091600, -10800, "-03"⟩,
     ⟨1648342800, -7200, "-02"⟩, ⟨1635642000, -10800, "-03"⟩, ⟨1616893200, -7200, "-02"⟩,
     ⟨1603587600, -10800, "-03"⟩, ⟨1585443600, -7200, "-02"⟩, ⟨1572138000, -10800, "-03"⟩,
     ⟨1553994000, -7200, "-02"⟩, ⟨1540688400, -10800, "-03"⟩, ⟨1521939600, -7200, "-02"⟩,
     ⟨1509238800, -10800, "-03"⟩, ⟨1490490000, -7200, "-02"⟩, ⟨1477789200, -10800, "-03"⟩,
     ⟨1459040400, -7200, "-02"⟩, ⟨1445734800, -10800, "-03"⟩, ⟨1427590800, -7200, "-02"⟩,
     ⟨1414285200, -10800, "-03"⟩, ⟨1396141200, -7200, "-02"⟩, ⟨1382835600, -10800, "-03"⟩,
     ⟨1364691600, -7200, "-02"⟩, ⟨1351386000, -10800, "-03"⟩, ⟨1332637200, -7200, "-02"⟩,
     ⟨1319936400, -10800, "-03"⟩, ⟨1301187600, -7200, "-02"⟩, ⟨1288486800, -10800, "-03"⟩,
     ⟨1269738000, -7200, "-02"⟩, ⟨1256432400, -10800, "-03"⟩, ⟨1238288400, -7200, "-02"⟩,
     ⟨1224982800, -10800, "-03"⟩, ⟨1206838800, -7200, "-02"⟩, ⟨1193533200, -10800, "-03"⟩,
     ⟨1174784400, -7200, "-02"⟩, ⟨1162083600, -10800, "-03"⟩, ⟨1143334800, -7200, "-02"⟩,
     ⟨1130634000, -10800, "-03"⟩, ⟨1111885200, -7200, "-02"⟩, ⟨1099184400, -10800, "-03"⟩,
     ⟨1080435600, -7200, "-02"⟩, ⟨1067130000, -10800, "-03"⟩, ⟨1048986000, -7200, "-02"⟩,
     ⟨1035680400, -10800, "-03"⟩, ⟨1017536400, -7200, "-02"⟩, ⟨1004230800, -10800, "-03"⟩,
     ⟨985482000, -7200, "-02"⟩, ⟨972781200, -10800, "-03"⟩, ⟨954032400, -7200, "-02"⟩,
     ⟨941331600, -10800, "-03"⟩, ⟨922582800, -7200, "-02"⟩, ⟨909277200, -10800, "-03"⟩,
     ⟨891133200, -7200, "-02"⟩, ⟨877827600, -10800, "-03"⟩, ⟨859683600, -7200, "-02"⟩,
     ⟨846378000, -10800, "-03"⟩, ⟨828234000, -7200, "-02"⟩, ⟨811904400, -10800, "-03"⟩,
     ⟨796179600, -7200, "-02"⟩, ⟨780454800, -10800, "-03"⟩, ⟨764730000, -7200, "-02"⟩,
     ⟨749005200, -10800, "-03"⟩, ⟨733280400, -7200, "-02"⟩, ⟨717555600, -10800, "-03"⟩,
     ⟨701830800, -7200, "-02"⟩, ⟨686106000, -10800, "-03"⟩, ⟨670381200, -7200, "-02"⟩,
     ⟨654656400, -10800, "-03"⟩, ⟨638326800, -7200, "-02"⟩, ⟨622602000, -10800, "-03"⟩,
     ⟨606877200, -7200, "-02"⟩, ⟨591152400, -10800, "-03"⟩, ⟨575427600, -7200, "-02"⟩,
     ⟨559702800, -10800, "-03"⟩, ⟨543978000, -7200, "-02"⟩, ⟨528253200, -10800, "-03"⟩,
     ⟨512528400, -7200, "-02"⟩, ⟨496803600, -10800, "-03"⟩, ⟨481078800, -7200, "-02"⟩,
     ⟨465354000, -10800, "-03"⟩, ⟨449024400, -7200, "-02"⟩, ⟨433299600, -10800, "-03"⟩,
     ⟨417574800, -7200, "-02"⟩, ⟨401850000, -10800, "-03"⟩, ⟨386125200, -7200, "-02"⟩,
     ⟨370400400, -10800, "-03"⟩, ⟨354675600, -7200, "-02"⟩, ⟨338950800, -10800, "-03"⟩,
     ⟨323845200, -7200, "-02"⟩, ⟨-1686083584, -10800, "-03"⟩]
  later := .seasonal ⟨-7200, "-02"⟩ ⟨-3600, "-01"⟩ ⟨3, 5, 0, -3600⟩ ⟨10, 5, 0, 0⟩

/-- `America/Phoenix`. -/
def phoenix : Region where
  name := "America/Phoenix"
  first := ⟨-26898, "LMT"⟩
  changes :=
    [⟨-68659200, -25200, "MST"⟩, ⟨-84380400, -21600, "MDT"⟩, ⟨-796845540, -25200, "MST"⟩,
     ⟨-812653140, -21600, "MWT"⟩, ⟨-820519140, -25200, "MST"⟩, ⟨-880210800, -21600, "MWT"⟩,
     ⟨-1583683200, -25200, "MST"⟩, ⟨-1601823600, -21600, "MDT"⟩, ⟨-1615132800, -25200, "MST"⟩,
     ⟨-1633273200, -21600, "MDT"⟩, ⟨-2717643600, -25200, "MST"⟩]
  later := .steady ⟨-25200, "MST"⟩

/-- `America/Sao_Paulo`. -/
def saoPaulo : Region where
  name := "America/Sao_Paulo"
  first := ⟨-11188, "LMT"⟩
  changes :=
    [⟨1550368800, -10800, "-03"⟩, ⟨1541300400, -7200, "-02"⟩, ⟨1518919200, -10800, "-03"⟩,
     ⟨1508036400, -7200, "-02"⟩, ⟨1487469600, -10800, "-03"⟩, ⟨1476586800, -7200, "-02"⟩,
     ⟨1456020000, -10800, "-03"⟩, ⟨1445137200, -7200, "-02"⟩, ⟨1424570400, -10800, "-03"⟩,
     ⟨1413687600, -7200, "-02"⟩, ⟨1392516000, -10800, "-03"⟩, ⟨1382238000, -7200, "-02"⟩,
     ⟨1361066400, -10800, "-03"⟩, ⟨1350788400, -7200, "-02"⟩, ⟨1330221600, -10800, "-03"⟩,
     ⟨1318734000, -7200, "-02"⟩, ⟨1298167200, -10800, "-03"⟩, ⟨1287284400, -7200, "-02"⟩,
     ⟨1266717600, -10800, "-03"⟩, ⟨1255834800, -7200, "-02"⟩, ⟨1234663200, -10800, "-03"⟩,
     ⟨1224385200, -7200, "-02"⟩, ⟨1203213600, -10800, "-03"⟩, ⟨1192330800, -7200, "-02"⟩,
     ⟨1172368800, -10800, "-03"⟩, ⟨1162695600, -7200, "-02"⟩, ⟨1140314400, -10800, "-03"⟩,
     ⟨1129431600, -7200, "-02"⟩, ⟨1108864800, -10800, "-03"⟩, ⟨1099364400, -7200, "-02"⟩,
     ⟨1076810400, -10800, "-03"⟩, ⟨1066532400, -7200, "-02"⟩, ⟨1045360800, -10800, "-03"⟩,
     ⟨1036292400, -7200, "-02"⟩, ⟨1013911200, -10800, "-03"⟩, ⟨1003028400, -7200, "-02"⟩,
     ⟨982461600, -10800, "-03"⟩, ⟨970974000, -7200, "-02"⟩, ⟨951616800, -10800, "-03"⟩,
     ⟨938919600, -7200, "-02"⟩, ⟨919562400, -10800, "-03"⟩, ⟨908074800, -7200, "-02"⟩,
     ⟨888717600, -10800, "-03"⟩, ⟨876106800, -7200, "-02"⟩, ⟨856058400, -10800, "-03"⟩,
     ⟨844570800, -7200, "-02"⟩, ⟨824004000, -10800, "-03"⟩, ⟨813726000, -7200, "-02"⟩,
     ⟨793159200, -10800, "-03"⟩, ⟨782276400, -7200, "-02"⟩, ⟨761709600, -10800, "-03"⟩,
     ⟨750826800, -7200, "-02"⟩, ⟨728445600, -10800, "-03"⟩, ⟨719982000, -7200, "-02"⟩,
     ⟨697600800, -10800, "-03"⟩, ⟨687927600, -7200, "-02"⟩, ⟨666756000, -10800, "-03"⟩,
     ⟨656478000, -7200, "-02"⟩, ⟨634701600, -10800, "-03"⟩, ⟨624423600, -7200, "-02"⟩,
     ⟨602042400, -10800, "-03"⟩, ⟨592974000, -7200, "-02"⟩, ⟨571197600, -10800, "-03"⟩,
     ⟨562129200, -7200, "-02"⟩, ⟨540266400, -10800, "-03"⟩, ⟨530593200, -7200, "-02"⟩,
     ⟨511236000, -10800, "-03"⟩, ⟨499748400, -7200, "-02"⟩, ⟨-57967200, -10800, "-03"⟩,
     ⟨-68418000, -7200, "-02"⟩, ⟨-89589600, -10800, "-03"⟩, ⟨-99954000, -7200, "-02"⟩,
     ⟨-121125600, -10800, "-03"⟩, ⟨-128898000, -7200, "-02"⟩, ⟨-150069600, -10800, "-03"⟩,
     ⟨-155163600, -7200, "-02"⟩, ⟨-184197600, -10800, "-03"⟩, ⟨-195426000, -7200, "-02"⟩,
     ⟨-531352800, -10800, "-03"⟩, ⟨-539125200, -7200, "-02"⟩, ⟨-560210400, -10800, "-03"⟩,
     ⟨-570747600, -7200, "-02"⟩, ⟨-591832800, -10800, "-03"⟩, ⟨-602283600, -7200, "-02"⟩,
     ⟨-622069200, -10800, "-03"⟩, ⟨-633819600, -7200, "-02"⟩, ⟨-1159826400, -10800, "-03"⟩,
     ⟨-1175374800, -7200, "-02"⟩, ⟨-1191362400, -10800, "-03"⟩, ⟨-1206957600, -7200, "-02"⟩,
     ⟨-1767214412, -10800, "-03"⟩]
  later := .steady ⟨-10800, "-03"⟩

/-- `America/St_Johns`. -/
def stJohns : Region where
  name := "America/St_Johns"
  first := ⟨-12652, "LMT"⟩
  changes :=
    [⟨1320114600, -9000, "NDT"⟩, ⟨1299987060, -9000, "NDT"⟩, ⟨1289097060, -12600, "NST"⟩,
     ⟨1268537460, -9000, "NDT"⟩, ⟨1257042660, -12600, "NST"⟩, ⟨1236483060, -9000, "NDT"⟩,
     ⟨1225593060, -12600, "NST"⟩, ⟨1205033460, -9000, "NDT"⟩, ⟨1194143460, -12600, "NST"⟩,
     ⟨1173583860, -9000, "NDT"⟩, ⟨1162089060, -12600, "NST"⟩, ⟨1143948660, -9000, "NDT"⟩,
     ⟨1130639460, -12600, "NST"⟩, ⟨1112499060, -9000, "NDT"⟩, ⟨1099189860, -12600, "NST"⟩,
     ⟨1081049460, -9000, "NDT"⟩, ⟨1067135460, -12600, "NST"⟩, ⟨1049599860, -9000, "NDT"⟩,
     ⟨1035685860, -12600, "NST"⟩, ⟨1018150260, -9000, "NDT"⟩, ⟨1004236260, -12600, "NST"⟩,
     ⟨986095860, -9000, "NDT"⟩, ⟨972786660, -12600, "NST"⟩, ⟨954646260, -9000, "NDT"⟩,
     ⟨941337060, -12600, "NST"⟩, ⟨923196660, -9000, "NDT"⟩, ⟨909282660, -12600, "NST"⟩,
     ⟨891747060, -9000, "NDT"⟩, ⟨877833060, -12600, "NST"⟩, ⟨860297460, -9000, "NDT"⟩,
     ⟨846383460, -12600, "NST"⟩, ⟨828847860, -9000, "NDT"⟩, ⟨814933860, -12600, "NST"⟩,
     ⟨796793460, -9000, "NDT"⟩, ⟨783484260, -12600, "NST"⟩, ⟨765343860, -9000, "NDT"⟩,
     ⟨752034660, -12600, "NST"⟩, ⟨733894260, -9000, "NDT"⟩, ⟨719980260, -12600, "NST"⟩,
     ⟨702444660, -9000, "NDT"⟩, ⟨688530660, -12600, "NST"⟩, ⟨670995060, -9000, "NDT"⟩,
     ⟨657081060, -12600, "NST"⟩, ⟨638940660, -9000, "NDT"⟩, ⟨625631460, -12600, "NST"⟩,
     ⟨607491060, -9000, "NDT"⟩, ⟨594178260, -12600, "NST"⟩, ⟨576041460, -5400, "NDDT"⟩,
     ⟨562127460, -12600, "NST"⟩, ⟨544591860, -9000, "NDT"⟩, ⟨530685000, -12600, "NST"⟩,
     ⟨514963800, -9000, "NDT"⟩, ⟨499235400, -12600, "NST"⟩, ⟨483514200, -9000, "NDT"⟩,
     ⟨467785800, -12600, "NST"⟩, ⟨452064600, -9000, "NDT"⟩, ⟨436336200, -12600, "NST"⟩,
     ⟨420010200, -9000, "NDT"⟩, ⟨404886600, -12600, "NST"⟩, ⟨388560600, -9000, "NDT"⟩,
     ⟨372832200, -12600, "NST"⟩, ⟨357111000, -9000, "NDT"⟩, ⟨341382600, -12600, "NST"⟩,
     ⟨325661400, -9000, "NDT"⟩, ⟨309933000, -12600, "NST"⟩, ⟨294211800, -9000, "NDT"⟩,
     ⟨278483400, -12600, "NST"⟩, ⟨262762200, -9000, "NDT"⟩, ⟨247033800, -12600, "NST"⟩,
     ⟨230707800, -9000, "NDT"⟩, ⟨215584200, -12600, "NST"⟩, ⟨199258200, -9000, "NDT"⟩,
     ⟨183529800, -12600, "NST"⟩, ⟨167808600, -9000, "NDT"⟩, ⟨152080200, -12600, "NST"⟩,
     ⟨136359000, -9000, "NDT"⟩, ⟨120630600, -12600, "NST"⟩, ⟨104909400, -9000, "NDT"⟩,
     ⟨89181000, -12600, "NST"⟩, ⟨73459800, -9000, "NDT"⟩, ⟨57731400, -12600, "NST"⟩,
     ⟨41405400, -9000, "NDT"⟩, ⟨25677000, -12600, "NST"⟩, ⟨9955800, -9000, "NDT"⟩,
     ⟨-5772600, -12600, "NST"⟩, ⟨-21493800, -9000, "NDT"⟩, ⟨-37222200, -12600, "NST"⟩,
     ⟨-52943400, -9000, "NDT"⟩, ⟨-68671800, -12600, "NST"⟩, ⟨-84393000, -9000, "NDT"⟩,
     ⟨-100121400, -12600, "NST"⟩, ⟨-116447400, -9000, "NDT"⟩, ⟨-131571000, -12600, "NST"⟩,
     ⟨-147897000, -9000, "NDT"⟩, ⟨-163625400, -12600, "NST"⟩, ⟨-179346600, -9000, "NDT"⟩,
     ⟨-195075000, -12600, "NST"⟩, ⟨-210796200, -9000, "NDT"⟩, ⟨-226524600, -12600, "NST"⟩,
     ⟨-242245800, -9000, "NDT"⟩, ⟨-257974200, -12600, "NST"⟩, ⟨-273695400, -9000, "NDT"⟩,
     ⟨-289423800, -12600, "NST"⟩, ⟨-305749800, -9000, "NDT"⟩, ⟨-323897400, -12600, "NST"⟩,
     ⟨-337199400, -9000, "NDT"⟩, ⟨-355347000, -12600, "NST"⟩, ⟨-368649000, -9000, "NDT"⟩,
     ⟨-386796600, -12600, "NST"⟩, ⟨-400098600, -9000, "NDT"⟩, ⟨-418246200, -12600, "NST"⟩,
     ⟨-431548200, -9000, "NDT"⟩, ⟨-450300600, -12600, "NST"⟩, ⟨-463602600, -9000, "NDT"⟩,
     ⟨-481750200, -12600, "NST"⟩, ⟨-495052200, -9000, "NDT"⟩, ⟨-513199800, -12600, "NST"⟩,
     ⟨-526501800, -9000, "NDT"⟩, ⟨-544649400, -12600, "NST"⟩, ⟨-557951400, -9000, "NDT"⟩,
     ⟨-576099000, -12600, "NST"⟩, ⟨-589401000, -9000, "NDT"⟩, ⟨-606943800, -12600, "NST"⟩,
     ⟨-619641000, -9000, "NDT"⟩, ⟨-638998200, -12600, "NST"⟩, ⟨-651695400, -9000, "NDT"⟩,
     ⟨-670447800, -12600, "NST"⟩, ⟨-683145000, -9000, "NDT"⟩, ⟨-701897400, -12600, "NST"⟩,
     ⟨-714594600, -9000, "NDT"⟩, ⟨-733347000, -12600, "NST"⟩, ⟨-746044200, -9000, "NDT"⟩,
     ⟨-765401400, -12600, "NST"⟩, ⟨-769395600, -9000, "NPT"⟩, ⟨-872368200, -9000, "NWT"⟩,
     ⟨-891120600, -12600, "NST"⟩, ⟨-903817800, -9000, "NDT"⟩, ⟨-922570200, -12600, "NST"⟩,
     ⟨-935267400, -9000, "NDT"⟩, ⟨-954624600, -12600, "NST"⟩, ⟨-966717000, -9000, "NDT"⟩,
     ⟨-986074200, -12600, "NST"⟩, ⟨-998771400, -9000, "NDT"⟩, ⟨-1017523800, -12600, "NST"⟩,
     ⟨-1030221000, -9000, "NDT"⟩, ⟨-1048973400, -12600, "NST"⟩, ⟨-1061670600, -9000, "NDT"⟩,
     ⟨-1078612200, -12600, "NST"⟩, ⟨-1093728600, -9000, "NDT"⟩, ⟨-1096921748, -12600, "NST"⟩,
     ⟨-1110061748, -12652, "NST"⟩, ⟨-1125178148, -9052, "NDT"⟩, ⟨-1141511348, -12652, "NST"⟩,
     ⟨-1156627748, -9052, "NDT"⟩, ⟨-1172960948, -12652, "NST"⟩, ⟨-1188682148, -9052, "NDT"⟩,
     ⟨-1205015348, -12652, "NST"⟩, ⟨-1220131748, -9052, "NDT"⟩, ⟨-1236464948, -12652, "NST"⟩,
     ⟨-1251581348, -9052, "NDT"⟩, ⟨-1267914548, -12652, "NST"⟩, ⟨-1283030948, -9052, "NDT"⟩,
     ⟨-1299364148, -12652, "NST"⟩, ⟨-1314480548, -9052, "NDT"⟩, ⟨-1330813748, -12652, "NST"⟩,
     ⟨-1346534948, -9052, "NDT"⟩, ⟨-1362263348, -12652, "NST"⟩, ⟨-1377984548, -9052, "NDT"⟩,
     ⟨-1394317748, -12652, "NST"⟩, ⟨-1409434148, -9052, "NDT"⟩, ⟨-1425767348, -12652, "NST"⟩,
     ⟨-1440883748, -9052, "NDT"⟩, ⟨-1457216948, -12652, "NST"⟩, ⟨-1472333348, -9052, "NDT"⟩,
     ⟨-1488666548, -12652, "NST"⟩, ⟨-1503782948, -9052, "NDT"⟩, ⟨-1520116148, -12652, "NST"⟩,
     ⟨-1535837348, -9052, "NDT"⟩, ⟨-1551565748, -12652, "NST"⟩, ⟨-1567286948, -9052, "NDT"⟩,
     ⟨-1590100148, -12652, "NST"⟩, ⟨-1598650148, -9052, "NDT"⟩, ⟨-1615145348, -12652, "NST"⟩,
     ⟨-1632076148, -9052, "NDT"⟩, ⟨-1650137348, -12652, "NST"⟩, ⟨-1664130548, -9052, "NDT"⟩,
     ⟨-2713897748, -12652, "NST"⟩]
  later := .seasonal ⟨-12600, "NST"⟩ ⟨-9000, "NDT"⟩ ⟨3, 2, 0, 7200⟩ ⟨11, 1, 0, 7200⟩

/-- `America/Toronto`. -/
def toronto : Region where
  name := "America/Toronto"
  first := ⟨-19052, "LMT"⟩
  changes :=
    [⟨1173596400, -14400, "EDT"⟩, ⟨1162101600, -18000, "EST"⟩, ⟨1143961200, -14400, "EDT"⟩,
     ⟨1130652000, -18000, "EST"⟩, ⟨1112511600, -14400, "EDT"⟩, ⟨1099202400, -18000, "EST"⟩,
     ⟨1081062000, -14400, "EDT"⟩, ⟨1067148000, -18000, "EST"⟩, ⟨1049612400, -14400, "EDT"⟩,
     ⟨1035698400, -18000, "EST"⟩, ⟨1018162800, -14400, "EDT"⟩, ⟨1004248800, -18000, "EST"⟩,
     ⟨986108400, -14400, "EDT"⟩, ⟨972799200, -18000, "EST"⟩, ⟨954658800, -14400, "EDT"⟩,
     ⟨941349600, -18000, "EST"⟩, ⟨923209200, -14400, "EDT"⟩, ⟨909295200, -18000, "EST"⟩,
     ⟨891759600, -14400, "EDT"⟩, ⟨877845600, -18000, "EST"⟩, ⟨860310000, -14400, "EDT"⟩,
     ⟨846396000, -18000, "EST"⟩, ⟨828860400, -14400, "EDT"⟩, ⟨814946400, -18000, "EST"⟩,
     ⟨796806000, -14400, "EDT"⟩, ⟨783496800, -18000, "EST"⟩, ⟨765356400, -14400, "EDT"⟩,
     ⟨752047200, -18000, "EST"⟩, ⟨733906800, -14400, "EDT"⟩, ⟨719992800, -18000, "EST"⟩,
     ⟨702457200, -14400, "EDT"⟩, ⟨688543200, -18000, "EST"⟩, ⟨671007600, -14400, "EDT"⟩,
     ⟨657093600, -18000, "EST"⟩, ⟨638953200, -14400, "EDT"⟩, ⟨625644000, -18000, "EST"⟩,
     ⟨607503600, -14400, "EDT"⟩, ⟨594194400, -18000, "EST"⟩, ⟨576054000, -14400, "EDT"⟩,
     ⟨562140000, -18000, "EST"⟩, ⟨544604400, -14400, "EDT"⟩, ⟨530690400, -18000, "EST"⟩,
     ⟨514969200, -14400, "EDT"⟩, ⟨499240800, -18000, "EST"⟩, ⟨483519600, -14400, "EDT"⟩,
     ⟨467791200, -18000, "EST"⟩, ⟨452070000, -14400, "EDT"⟩, ⟨436341600, -18000, "EST"⟩,
     ⟨420015600, -14400, "EDT"⟩, ⟨404892000, -18000, "EST"⟩, ⟨388566000, -14400, "EDT"⟩,
     ⟨372837600, -18000, "EST"⟩, ⟨357116400, -14400, "EDT"⟩, ⟨341388000, -18000, "EST"⟩,
     ⟨325666800, -14400, "EDT"⟩, ⟨309938400, -18000, "EST"⟩, ⟨294217200, -14400, "EDT"⟩,
     ⟨278488800, -18000, "EST"⟩, ⟨262767600, -14400, "EDT"⟩, ⟨247039200, -18000, "EST"⟩,
     ⟨230713200, -14400, "EDT"⟩, ⟨215589600, -18000, "EST"⟩, ⟨199263600, -14400, "EDT"⟩,
     ⟨183535200, -18000, "EST"⟩, ⟨167814000, -14400, "EDT"⟩, ⟨152085600, -18000, "EST"⟩,
     ⟨136364400, -14400, "EDT"⟩, ⟨120636000, -18000, "EST"⟩, ⟨104914800, -14400, "EDT"⟩,
     ⟨89186400, -18000, "EST"⟩, ⟨73465200, -14400, "EDT"⟩, ⟨57736800, -18000, "EST"⟩,
     ⟨41410800, -14400, "EDT"⟩, ⟨25682400, -18000, "EST"⟩, ⟨9961200, -14400, "EDT"⟩,
     ⟨-5767200, -18000, "EST"⟩, ⟨-21488400, -14400, "EDT"⟩, ⟨-37216800, -18000, "EST"⟩,
     ⟨-52938000, -14400, "EDT"⟩, ⟨-68666400, -18000, "EST"⟩, ⟨-84387600, -14400, "EDT"⟩,
     ⟨-100116000, -18000, "EST"⟩, ⟨-116442000, -14400, "EDT"⟩, ⟨-131565600, -18000, "EST"⟩,
     ⟨-147891600, -14400, "EDT"⟩, ⟨-163620000, -18000, "EST"⟩, ⟨-179341200, -14400, "EDT"⟩,
     ⟨-195069600, -18000, "EST"⟩, ⟨-210790800, -14400, "EDT"⟩, ⟨-226519200, -18000, "EST"⟩,
     ⟨-242240400, -14400, "EDT"⟩, ⟨-257968800, -18000, "EST"⟩, ⟨-273690000, -14400, "EDT"⟩,
     ⟨-289418400, -18000, "EST"⟩, ⟨-305744400, -14400, "EDT"⟩, ⟨-321472800, -18000, "EST"⟩,
     ⟨-337194000, -14400, "EDT"⟩, ⟨-352922400, -18000, "EST"⟩, ⟨-368643600, -14400, "EDT"⟩,
     ⟨-384372000, -18000, "EST"⟩, ⟨-400093200, -14400, "EDT"⟩, ⟨-418240800, -18000, "EST"⟩,
     ⟨-431542800, -14400, "EDT"⟩, ⟨-450295200, -18000, "EST"⟩, ⟨-463597200, -14400, "EDT"⟩,
     ⟨-481744800, -18000, "EST"⟩, ⟨-495046800, -14400, "EDT"⟩, ⟨-513194400, -18000, "EST"⟩,
     ⟨-526496400, -14400, "EDT"⟩, ⟨-544644000, -18000, "EST"⟩, ⟨-557946000, -14400, "EDT"⟩,
     ⟨-576093600, -18000, "EST"⟩, ⟨-589395600, -14400, "EDT"⟩, ⟨-602704800, -18000, "EST"⟩,
     ⟨-620845200, -14400, "EDT"⟩, ⟨-634154400, -18000, "EST"⟩, ⟨-652899600, -14400, "EDT"⟩,
     ⟨-671047200, -18000, "EST"⟩, ⟨-684349200, -14400, "EDT"⟩, ⟨-702496800, -18000, "EST"⟩,
     ⟨-715798800, -14400, "EDT"⟩, ⟨-733946400, -18000, "EST"⟩, ⟨-747248400, -14400, "EDT"⟩,
     ⟨-765396000, -18000, "EST"⟩, ⟨-769395600, -14400, "EPT"⟩, ⟨-880218000, -14400, "EWT"⟩,
     ⟨-936550800, -14400, "EDT"⟩, ⟨-955303200, -18000, "EST"⟩, ⟨-968000400, -14400, "EDT"⟩,
     ⟨-986752800, -18000, "EST"⟩, ⟨-1000054800, -14400, "EDT"⟩, ⟨-1018202400, -18000, "EST"⟩,
     ⟨-1031504400, -14400, "EDT"⟩, ⟨-1049652000, -18000, "EST"⟩, ⟨-1062954000, -14400, "EDT"⟩,
     ⟨-1081101600, -18000, "EST"⟩, ⟨-1094403600, -14400, "EDT"⟩, ⟨-1112551200, -18000, "EST"⟩,
     ⟨-1125853200, -14400, "EDT"⟩, ⟨-1144000800, -18000, "EST"⟩, ⟨-1157302800, -14400, "EDT"⟩,
     ⟨-1176055200, -18000, "EST"⟩, ⟨-1188752400, -14400, "EDT"⟩, ⟨-1207504800, -18000, "EST"⟩,
     ⟨-1220806800, -14400, "EDT"⟩, ⟨-1238954400, -18000, "EST"⟩, ⟨-1252256400, -14400, "EDT"⟩,
     ⟨-1270404000, -18000, "EST"⟩, ⟨-1283706000, -14400, "EDT"⟩, ⟨-1301853600, -18000, "EST"⟩,
     ⟨-1315155600, -14400, "EDT"⟩, ⟨-1333908000, -18000, "EST"⟩, ⟨-1346605200, -14400, "EDT"⟩,
     ⟨-1365962400, -18000, "EST"⟩, ⟨-1378054800, -14400, "EDT"⟩, ⟨-1397412000, -18000, "EST"⟩,
     ⟨-1409504400, -14400, "EDT"⟩, ⟨-1428861600, -18000, "EST"⟩, ⟨-1440954000, -14400, "EDT"⟩,
     ⟨-1460916000, -18000, "EST"⟩, ⟨-1471798800, -14400, "EDT"⟩, ⟨-1492365600, -18000, "EST"⟩,
     ⟨-1503248400, -14400, "EDT"⟩, ⟨-1524074400, -18000, "EST"⟩, ⟨-1534698000, -14400, "EDT"⟩,
     ⟨-1554667200, -18000, "EST"⟩, ⟨-1567357200, -14400, "EDT"⟩, ⟨-1583697600, -18000, "EST"⟩,
     ⟨-1601753400, -14400, "EDT"⟩, ⟨-1615140000, -18000, "EST"⟩, ⟨-1632070800, -14400, "EDT"⟩,
     ⟨-2366736148, -18000, "EST"⟩]
  later := .seasonal ⟨-18000, "EST"⟩ ⟨-14400, "EDT"⟩ ⟨3, 2, 0, 7200⟩ ⟨11, 1, 0, 7200⟩

/-- `America/Vancouver`. -/
def vancouver : Region where
  name := "America/Vancouver"
  first := ⟨-29548, "LMT"⟩
  changes :=
    [⟨1173607200, -25200, "PDT"⟩, ⟨1162112400, -28800, "PST"⟩, ⟨1143972000, -25200, "PDT"⟩,
     ⟨1130662800, -28800, "PST"⟩, ⟨1112522400, -25200, "PDT"⟩, ⟨1099213200, -28800, "PST"⟩,
     ⟨1081072800, -25200, "PDT"⟩, ⟨1067158800, -28800, "PST"⟩, ⟨1049623200, -25200, "PDT"⟩,
     ⟨1035709200, -28800, "PST"⟩, ⟨1018173600, -25200, "PDT"⟩, ⟨1004259600, -28800, "PST"⟩,
     ⟨986119200, -25200, "PDT"⟩, ⟨972810000, -28800, "PST"⟩, ⟨954669600, -25200, "PDT"⟩,
     ⟨941360400, -28800, "PST"⟩, ⟨923220000, -25200, "PDT"⟩, ⟨909306000, -28800, "PST"⟩,
     ⟨891770400, -25200, "PDT"⟩, ⟨877856400, -28800, "PST"⟩, ⟨860320800, -25200, "PDT"⟩,
     ⟨846406800, -28800, "PST"⟩, ⟨828871200, -25200, "PDT"⟩, ⟨814957200, -28800, "PST"⟩,
     ⟨796816800, -25200, "PDT"⟩, ⟨783507600, -28800, "PST"⟩, ⟨765367200, -25200, "PDT"⟩,
     ⟨752058000, -28800, "PST"⟩, ⟨733917600, -25200, "PDT"⟩, ⟨720003600, -28800, "PST"⟩,
     ⟨702468000, -25200, "PDT"⟩, ⟨688554000, -28800, "PST"⟩, ⟨671018400, -25200, "PDT"⟩,
     ⟨657104400, -28800, "PST"⟩, ⟨638964000, -25200, "PDT"⟩, ⟨625654800, -28800, "PST"⟩,
     ⟨607514400, -25200, "PDT"⟩, ⟨594205200, -28800, "PST"⟩, ⟨576064800, -25200, "PDT"⟩,
     ⟨562150800, -28800, "PST"⟩, ⟨544615200, -25200, "PDT"⟩, ⟨530701200, -28800, "PST"⟩,
     ⟨514980000, -25200, "PDT"⟩, ⟨499251600, -28800, "PST"⟩, ⟨483530400, -25200, "PDT"⟩,
     ⟨467802000, -28800, "PST"⟩, ⟨452080800, -25200, "PDT"⟩, ⟨436352400, -28800, "PST"⟩,
     ⟨420026400, -25200, "PDT"⟩, ⟨404902800, -28800, "PST"⟩, ⟨388576800, -25200, "PDT"⟩,
     ⟨372848400, -28800, "PST"⟩, ⟨357127200, -25200, "PDT"⟩, ⟨341398800, -28800, "PST"⟩,
     ⟨325677600, -25200, "PDT"⟩, ⟨309949200, -28800, "PST"⟩, ⟨294228000, -25200, "PDT"⟩,
     ⟨278499600, -28800, "PST"⟩, ⟨262778400, -25200, "PDT"⟩, ⟨247050000, -28800, "PST"⟩,
     ⟨230724000, -25200, "PDT"⟩, ⟨215600400, -28800, "PST"⟩, ⟨199274400, -25200, "PDT"⟩,
     ⟨183546000, -28800, "PST"⟩, ⟨167824800, -25200, "PDT"⟩, ⟨152096400, -28800, "PST"⟩,
     ⟨136375200, -25200, "PDT"⟩, ⟨120646800, -28800, "PST"⟩, ⟨104925600, -25200, "PDT"⟩,
     ⟨89197200, -28800, "PST"⟩, ⟨73476000, -25200, "PDT"⟩, ⟨57747600, -28800, "PST"⟩,
     ⟨41421600, -25200, "PDT"⟩, ⟨25693200, -28800, "PST"⟩, ⟨9972000, -25200, "PDT"⟩,
     ⟨-5756400, -28800, "PST"⟩, ⟨-21477600, -25200, "PDT"⟩, ⟨-37206000, -28800, "PST"⟩,
     ⟨-52927200, -25200, "PDT"⟩, ⟨-68655600, -28800, "PST"⟩, ⟨-84376800, -25200, "PDT"⟩,
     ⟨-100105200, -28800, "PST"⟩, ⟨-116431200, -25200, "PDT"⟩, ⟨-131554800, -28800, "PST"⟩,
     ⟨-147880800, -25200, "PDT"⟩, ⟨-163609200, -28800, "PST"⟩, ⟨-179330400, -25200, "PDT"⟩,
     ⟨-195058800, -28800, "PST"⟩, ⟨-210780000, -25200, "PDT"⟩, ⟨-226508400, -28800, "PST"⟩,
     ⟨-242229600, -25200, "PDT"⟩, ⟨-260982000, -28800, "PST"⟩, ⟨-273679200, -25200, "PDT"⟩,
     ⟨-292431600, -28800, "PST"⟩, ⟨-305733600, -25200, "PDT"⟩, ⟨-323881200, -28800, "PST"⟩,
     ⟨-337183200, -25200, "PDT"⟩, ⟨-355330800, -28800, "PST"⟩, ⟨-368632800, -25200, "PDT"⟩,
     ⟨-386780400, -28800, "PST"⟩, ⟨-400082400, -25200, "PDT"⟩, ⟨-418230000, -28800, "PST"⟩,
     ⟨-431532000, -25200, "PDT"⟩, ⟨-450284400, -28800, "PST"⟩, ⟨-463586400, -25200, "PDT"⟩,
     ⟨-481734000, -28800, "PST"⟩, ⟨-495036000, -25200, "PDT"⟩, ⟨-513183600, -28800, "PST"⟩,
     ⟨-526485600, -25200, "PDT"⟩, ⟨-544633200, -28800, "PST"⟩, ⟨-557935200, -25200, "PDT"⟩,
     ⟨-576082800, -28800, "PST"⟩, ⟨-589384800, -25200, "PDT"⟩, ⟨-608137200, -28800, "PST"⟩,
     ⟨-620834400, -25200, "PDT"⟩, ⟨-639586800, -28800, "PST"⟩, ⟨-652888800, -25200, "PDT"⟩,
     ⟨-671036400, -28800, "PST"⟩, ⟨-684338400, -25200, "PDT"⟩, ⟨-702486000, -28800, "PST"⟩,
     ⟨-715788000, -25200, "PDT"⟩, ⟨-733935600, -28800, "PST"⟩, ⟨-747237600, -25200, "PDT"⟩,
     ⟨-765385200, -28800, "PST"⟩, ⟨-769395600, -25200, "PPT"⟩, ⟨-880207200, -25200, "PWT"⟩,
     ⟨-1615129200, -28800, "PST"⟩, ⟨-1632060000, -25200, "PDT"⟩, ⟨-2713880852, -28800, "PST"⟩]
  later := .seasonal ⟨-28800, "PST"⟩ ⟨-25200, "PDT"⟩ ⟨3, 2, 0, 7200⟩ ⟨11, 1, 0, 7200⟩

/-- `US/Pacific`. -/
def usPacific : Region := { losAngeles with name := "US/Pacific" }

end RecurringEvents.Region
