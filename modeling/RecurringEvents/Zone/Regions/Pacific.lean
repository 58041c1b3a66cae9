import RecurringEvents.Zone.Region

/-!
# Regions of Australia and the Pacific

The clocks of the regions since local mean time, as the tz database tells them (release 2025b). The
latest change stands first.
-/

namespace RecurringEvents.Region

/-- `Australia/Lord_Howe`. -/
def lordHowe : Region where
  name := "Australia/Lord_Howe"
  first := ⟨38180, "LMT"⟩
  changes :=
    [⟨1207407600, 37800, "+1030"⟩, ⟨1193499000, 39600, "+11"⟩, ⟨1174748400, 37800, "+1030"⟩,
     ⟨1162049400, 39600, "+11"⟩, ⟨1143903600, 37800, "+1030"⟩, ⟨1130599800, 39600, "+11"⟩,
     ⟨1111849200, 37800, "+1030"⟩, ⟨1099150200, 39600, "+11"⟩, ⟨1080399600, 37800, "+1030"⟩,
     ⟨1067095800, 39600, "+11"⟩, ⟨1048950000, 37800, "+1030"⟩, ⟨1035646200, 39600, "+11"⟩,
     ⟨1017500400, 37800, "+1030"⟩, ⟨1004196600, 39600, "+11"⟩, ⟨985446000, 37800, "+1030"⟩,
     ⟨967303800, 39600, "+11"⟩, ⟨953996400, 37800, "+1030"⟩, ⟨941297400, 39600, "+11"⟩,
     ⟨922546800, 37800, "+1030"⟩, ⟨909243000, 39600, "+11"⟩, ⟨891097200, 37800, "+1030"⟩,
     ⟨877793400, 39600, "+11"⟩, ⟨859647600, 37800, "+1030"⟩, ⟨846343800, 39600, "+11"⟩,
     ⟨828198000, 37800, "+1030"⟩, ⟨814894200, 39600, "+11"⟩, ⟨794329200, 37800, "+1030"⟩,
     ⟨783444600, 39600, "+11"⟩, ⟨762879600, 37800, "+1030"⟩, ⟨751995000, 39600, "+11"⟩,
     ⟨731430000, 37800, "+1030"⟩, ⟨719940600, 39600, "+11"⟩, ⟨699375600, 37800, "+1030"⟩,
     ⟨688491000, 39600, "+11"⟩, ⟨667926000, 37800, "+1030"⟩, ⟨657041400, 39600, "+11"⟩,
     ⟨636476400, 37800, "+1030"⟩, ⟨625591800, 39600, "+11"⟩, ⟨606236400, 37800, "+1030"⟩,
     ⟨594142200, 39600, "+11"⟩, ⟨574786800, 37800, "+1030"⟩, ⟨562087800, 39600, "+11"⟩,
     ⟨542732400, 37800, "+1030"⟩, ⟨530033400, 39600, "+11"⟩, ⟨511282800, 37800, "+1030"⟩,
     ⟨499188600, 39600, "+11"⟩, ⟨478621800, 37800, "+1030"⟩, ⟨467739000, 41400, "+1130"⟩,
     ⟨447172200, 37800, "+1030"⟩, ⟨436289400, 41400, "+1130"⟩, ⟨415722600, 37800, "+1030"⟩,
     ⟨404839800, 41400, "+1130"⟩, ⟨384273000, 37800, "+1030"⟩, ⟨372785400, 41400, "+1130"⟩,
     ⟨352216800, 37800, "+1030"⟩, ⟨-2364114980, 36000, "AEST"⟩]
  later := .seasonal ⟨37800, "+1030"⟩ ⟨39600, "+11"⟩ ⟨10, 1, 0, 7200⟩ ⟨4, 1, 0, 7200⟩

/-- `Australia/Melbourne`. -/
def melbourne : Region where
  name := "Australia/Melbourne"
  first := ⟨34792, "LMT"⟩
  changes :=
    [⟨1207411200, 36000, "AEST"⟩, ⟨1193500800, 39600, "AEDT"⟩, ⟨1174752000, 36000, "AEST"⟩,
     ⟨1162051200, 39600, "AEDT"⟩, ⟨1143907200, 36000, "AEST"⟩, ⟨1130601600, 39600, "AEDT"⟩,
     ⟨1111852800, 36000, "AEST"⟩, ⟨1099152000, 39600, "AEDT"⟩, ⟨1080403200, 36000, "AEST"⟩,
     ⟨1067097600, 39600, "AEDT"⟩, ⟨1048953600, 36000, "AEST"⟩, ⟨1035648000, 39600, "AEDT"⟩,
     ⟨1017504000, 36000, "AEST"⟩, ⟨1004198400, 39600, "AEDT"⟩, ⟨985449600, 36000, "AEST"⟩,
     ⟨967305600, 39600, "AEDT"⟩, ⟨954000000, 36000, "AEST"⟩, ⟨941299200, 39600, "AEDT"⟩,
     ⟨922550400, 36000, "AEST"⟩, ⟨909244800, 39600, "AEDT"⟩, ⟨891100800, 36000, "AEST"⟩,
     ⟨877795200, 39600, "AEDT"⟩, ⟨859651200, 36000, "AEST"⟩, ⟨846345600, 39600, "AEDT"⟩,
     ⟨828201600, 36000, "AEST"⟩, ⟨814896000, 39600, "AEDT"⟩, ⟨796147200, 36000, "AEST"⟩,
     ⟨783446400, 39600, "AEDT"⟩, ⟨762883200, 36000, "AEST"⟩, ⟨751996800, 39600, "AEDT"⟩,
     ⟨731433600, 36000, "AEST"⟩, ⟨719942400, 39600, "AEDT"⟩, ⟨699379200, 36000, "AEST"⟩,
     ⟨688492800, 39600, "AEDT"⟩, ⟨667929600, 36000, "AEST"⟩, ⟨657043200, 39600, "AEDT"⟩,
     ⟨637689600, 36000, "AEST"⟩, ⟨625593600, 39600, "AEDT"⟩, ⟨606240000, 36000, "AEST"⟩,
     ⟨594144000, 39600, "AEDT"⟩, ⟨574790400, 36000, "AEST"⟩, ⟨561484800, 39600, "AEDT"⟩,
     ⟨542736000, 36000, "AEST"⟩, ⟨530035200, 39600, "AEDT"⟩, ⟨511286400, 36000, "AEST"⟩,
     ⟨499190400, 39600, "AEDT"⟩, ⟨478627200, 36000, "AEST"⟩, ⟨467740800, 39600, "AEDT"⟩,
     ⟨447177600, 36000, "AEST"⟩, ⟨436291200, 39600, "AEDT"⟩, ⟨415728000, 36000, "AEST"⟩,
     ⟨404841600, 39600, "AEDT"⟩, ⟨384278400, 36000, "AEST"⟩, ⟨372787200, 39600, "AEDT"⟩,
     ⟨352224000, 36000, "AEST"⟩, ⟨341337600, 39600, "AEDT"⟩, ⟨320774400, 36000, "AEST"⟩,
     ⟨309888000, 39600, "AEDT"⟩, ⟨289324800, 36000, "AEST"⟩, ⟨278438400, 39600, "AEDT"⟩,
     ⟨257875200, 36000, "AEST"⟩, ⟨246988800, 39600, "AEDT"⟩, ⟨226425600, 36000, "AEST"⟩,
     ⟨215539200, 39600, "AEDT"⟩, ⟨194976000, 36000, "AEST"⟩, ⟨183484800, 39600, "AEDT"⟩,
     ⟨162921600, 36000, "AEST"⟩, ⟨152035200, 39600, "AEDT"⟩, ⟨131472000, 36000, "AEST"⟩,
     ⟨120585600, 39600, "AEDT"⟩, ⟨100022400, 36000, "AEST"⟩, ⟨89136000, 39600, "AEDT"⟩,
     ⟨67968000, 36000, "AEST"⟩, ⟨57686400, 39600, "AEDT"⟩, ⟨-813225600, 36000, "AEST"⟩,
     ⟨-828345600, 39600, "AEDT"⟩, ⟨-844675200, 36000, "AEST"⟩, ⟨-860400000, 39600, "AEDT"⟩,
     ⟨-876124800, 36000, "AEST"⟩, ⟨-883641600, 39600, "AEDT"⟩, ⟨-1665388800, 36000, "AEST"⟩,
     ⟨-1672560000, 39600, "AEDT"⟩, ⟨-2364111592, 36000, "AEST"⟩]
  later := .seasonal ⟨36000, "AEST"⟩ ⟨39600, "AEDT"⟩ ⟨10, 1, 0, 7200⟩ ⟨4, 1, 0, 10800⟩

/-- `Australia/Perth`. -/
def perth : Region where
  name := "Australia/Perth"
  first := ⟨27804, "LMT"⟩
  changes :=
    [⟨1238263200, 28800, "AWST"⟩, ⟨1224957600, 32400, "AWDT"⟩, ⟨1206813600, 28800, "AWST"⟩,
     ⟨1193508000, 32400, "AWDT"⟩, ⟨1174759200, 28800, "AWST"⟩, ⟨1165082400, 32400, "AWDT"⟩,
     ⟨699386400, 28800, "AWST"⟩, ⟨690314400, 32400, "AWDT"⟩, ⟨447184800, 28800, "AWST"⟩,
     ⟨436298400, 32400, "AWDT"⟩, ⟨162928800, 28800, "AWST"⟩, ⟨152042400, 32400, "AWDT"⟩,
     ⟨-844668000, 28800, "AWST"⟩, ⟨-860392800, 32400, "AWDT"⟩, ⟨-876117600, 28800, "AWST"⟩,
     ⟨-883634400, 32400, "AWDT"⟩, ⟨-1665381600, 28800, "AWST"⟩, ⟨-1672552800, 32400, "AWDT"⟩,
     ⟨-2337925404, 28800, "AWST"⟩]
  later := .steady ⟨28800, "AWST"⟩

/-- `Australia/Sydney`. -/
def sydney : Region where
  name := "Australia/Sydney"
  first := ⟨36292, "LMT"⟩
  changes :=
    [⟨1207411200, 36000, "AEST"⟩, ⟨1193500800, 39600, "AEDT"⟩, ⟨1174752000, 36000, "AEST"⟩,
     ⟨1162051200, 39600, "AEDT"⟩, ⟨1143907200, 36000, "AEST"⟩, ⟨1130601600, 39600, "AEDT"⟩,
     ⟨1111852800, 36000, "AEST"⟩, ⟨1099152000, 39600, "AEDT"⟩, ⟨1080403200, 36000, "AEST"⟩,
     ⟨1067097600, 39600, "AEDT"⟩, ⟨1048953600, 36000, "AEST"⟩, ⟨1035648000, 39600, "AEDT"⟩,
     ⟨1017504000, 36000, "AEST"⟩, ⟨1004198400, 39600, "AEDT"⟩, ⟨985449600, 36000, "AEST"⟩,
     ⟨967305600, 39600, "AEDT"⟩, ⟨954000000, 36000, "AEST"⟩, ⟨941299200, 39600, "AEDT"⟩,
     ⟨922550400, 36000, "AEST"⟩, ⟨909244800, 39600, "AEDT"⟩, ⟨891100800, 36000, "AEST"⟩,
     ⟨877795200, 39600, "AEDT"⟩, ⟨859651200, 36000, "AEST"⟩, ⟨846345600, 39600, "AEDT"⟩,
     ⟨828201600, 36000, "AEST"⟩, ⟨814896000, 39600, "AEDT"⟩, ⟨794332800, 36000, "AEST"⟩,
     ⟨783446400, 39600, "AEDT"⟩, ⟨762883200, 36000, "AEST"⟩, ⟨751996800, 39600, "AEDT"⟩,
     ⟨731433600, 36000, "AEST"⟩, ⟨719942400, 39600, "AEDT"⟩, ⟨699379200, 36000, "AEST"⟩,
     ⟨688492800, 39600, "AEDT"⟩, ⟨667929600, 36000, "AEST"⟩, ⟨657043200, 39600, "AEDT"⟩,
     ⟨636480000, 36000, "AEST"⟩, ⟨625593600, 39600, "AEDT"⟩, ⟨606240000, 36000, "AEST"⟩,
     ⟨594144000, 39600, "AEDT"⟩, ⟨574790400, 36000, "AEST"⟩, ⟨562089600, 39600, "AEDT"⟩,
     ⟨542736000, 36000, "AEST"⟩, ⟨530035200, 39600, "AEDT"⟩, ⟨511286400, 36000, "AEST"⟩,
     ⟨499190400, 39600, "AEDT"⟩, ⟨478627200, 36000, "AEST"⟩, ⟨467740800, 39600, "AEDT"⟩,
     ⟨447177600, 36000, "AEST"⟩, ⟨436291200, 39600, "AEDT"⟩, ⟨415728000, 36000, "AEST"⟩,
     ⟨404841600, 39600, "AEDT"⟩, ⟨386697600, 36000, "AEST"⟩, ⟨372787200, 39600, "AEDT"⟩,
     ⟨352224000, 36000, "AEST"⟩, ⟨341337600, 39600, "AEDT"⟩, ⟨320774400, 36000, "AEST"⟩,
     ⟨309888000, 39600, "AEDT"⟩, ⟨289324800, 36000, "AEST"⟩, ⟨278438400, 39600, "AEDT"⟩,
     ⟨257875200, 36000, "AEST"⟩, ⟨246988800, 39600, "AEDT"⟩, ⟨226425600, 36000, "AEST"⟩,
     ⟨215539200, 39600, "AEDT"⟩, ⟨194976000, 36000, "AEST"⟩, ⟨183484800, 39600, "AEDT"⟩,
     ⟨162921600, 36000, "AEST"⟩, ⟨152035200, 39600, "AEDT"⟩, ⟨131472000, 36000, "AEST"⟩,
     ⟨120585600, 39600, "AEDT"⟩, ⟨100022400, 36000, "AEST"⟩, ⟨89136000, 39600, "AEDT"⟩,
     ⟨67968000, 36000, "AEST"⟩, ⟨57686400, 39600, "AEDT"⟩, ⟨-813225600, 36000, "AEST"⟩,
     ⟨-828345600, 39600, "AEDT"⟩, ⟨-844675200, 36000, "AEST"⟩, ⟨-860400000, 39600, "AEDT"⟩,
     ⟨-876124800, 36000, "AEST"⟩, ⟨-883641600, 39600, "AEDT"⟩, ⟨-1665388800, 36000, "AEST"⟩,
     ⟨-1672560000, 39600, "AEDT"⟩, ⟨-2364113092, 36000, "AEST"⟩]
  later := .seasonal ⟨36000, "AEST"⟩ ⟨39600, "AEDT"⟩ ⟨10, 1, 0, 7200⟩ ⟨4, 1, 0, 10800⟩

/-- `Pacific/Apia`. -/
def apia : Region where
  name := "Pacific/Apia"
  first := ⟨45184, "LMT"⟩
  changes :=
    [⟨1617458400, 46800, "+13"⟩, ⟨1601128800, 50400, "+14"⟩, ⟨1586008800, 46800, "+13"⟩,
     ⟨1569679200, 50400, "+14"⟩, ⟨1554559200, 46800, "+13"⟩, ⟨1538229600, 50400, "+14"⟩,
     ⟨1522504800, 46800, "+13"⟩, ⟨1506175200, 50400, "+14"⟩, ⟨1491055200, 46800, "+13"⟩,
     ⟨1474725600, 50400, "+14"⟩, ⟨1459605600, 46800, "+13"⟩, ⟨1443276000, 50400, "+14"⟩,
     ⟨1428156000, 46800, "+13"⟩, ⟨1411826400, 50400, "+14"⟩, ⟨1396706400, 46800, "+13"⟩,
     ⟨1380376800, 50400, "+14"⟩, ⟨1365256800, 46800, "+13"⟩, ⟨1348927200, 50400, "+14"⟩,
     ⟨1333202400, 46800, "+13"⟩, ⟨1325239200, 50400, "+14"⟩, ⟨1316872800, -36000, "-10"⟩,
     ⟨1301752800, -39600, "-11"⟩, ⟨1285498800, -36000, "-10"⟩, ⟨-631110600, -39600, "-11"⟩,
     ⟨-1861878784, -41400, "-1130"⟩, ⟨-2445424384, -41216, "LMT"⟩]
  later := .steady ⟨46800, "+13"⟩

/-- `Pacific/Auckland`. -/
def auckland : Region where
  name := "Pacific/Auckland"
  first := ⟨41944, "LMT"⟩
  changes :=
    [⟨1191074400, 46800, "NZDT"⟩, ⟨1174140000, 43200, "NZST"⟩, ⟨1159624800, 46800, "NZDT"⟩,
     ⟨1142690400, 43200, "NZST"⟩, ⟨1128175200, 46800, "NZDT"⟩, ⟨1111240800, 43200, "NZST"⟩,
     ⟨1096725600, 46800, "NZDT"⟩, ⟨1079791200, 43200, "NZST"⟩, ⟨1065276000, 46800, "NZDT"⟩,
     ⟨1047736800, 43200, "NZST"⟩, ⟨1033826400, 46800, "NZDT"⟩, ⟨1016287200, 43200, "NZST"⟩,
     ⟨1002376800, 46800, "NZDT"⟩, ⟨984837600, 43200, "NZST"⟩, ⟨970322400, 46800, "NZDT"⟩,
     ⟨953388000, 43200, "NZST"⟩, ⟨938872800, 46800, "NZDT"⟩, ⟨921938400, 43200, "NZST"⟩,
     ⟨907423200, 46800, "NZDT"⟩, ⟨889884000, 43200, "NZST"⟩, ⟨875973600, 46800, "NZDT"⟩,
     ⟨858434400, 43200, "NZST"⟩, ⟨844524000, 46800, "NZDT"⟩, ⟨826984800, 43200, "NZST"⟩,
     ⟨812469600, 46800, "NZDT"⟩, ⟨795535200, 43200, "NZST"⟩, ⟨781020000, 46800, "NZDT"⟩,
     ⟨764085600, 43200, "NZST"⟩, ⟨749570400, 46800, "NZDT"⟩, ⟨732636000, 43200, "NZST"⟩,
     ⟨718120800, 46800, "NZDT"⟩, ⟨700581600, 43200, "NZST"⟩, ⟨686671200, 46800, "NZDT"⟩,
     ⟨669132000, 43200, "NZST"⟩, ⟨655221600, 46800, "NZDT"⟩, ⟨637682400, 43200, "NZST"⟩,
     ⟨623772000, 46800, "NZDT"⟩, ⟨605023200, 43200, "NZST"⟩, ⟨594136800, 46800, "NZDT"⟩,
     ⟨573573600, 43200, "NZST"⟩, ⟨562082400, 46800, "NZDT"⟩, ⟨541519200, 43200, "NZST"⟩,
     ⟨530632800, 46800, "NZDT"⟩, ⟨510069600, 43200, "NZST"⟩, ⟨499183200, 46800, "NZDT"⟩,
     ⟨478620000, 43200, "NZST"⟩, ⟨467733600, 46800, "NZDT"⟩, ⟨447170400, 43200, "NZST"⟩,
     ⟨436284000, 46800, "NZDT"⟩, ⟨415720800, 43200, "NZST"⟩, ⟨404834400, 46800, "NZDT"⟩,
     ⟨384271200, 43200, "NZST"⟩, ⟨372780000, 46800, "NZDT"⟩, ⟨352216800, 43200, "NZST"⟩,
     ⟨341330400, 46800, "NZDT"⟩, ⟨320767200, 43200, "NZST"⟩, ⟨309880800, 46800, "NZDT"⟩,
     ⟨289317600, 43200, "NZST"⟩, ⟨278431200, 46800, "NZDT"⟩, ⟨257868000, 43200, "NZST"⟩,
     ⟨246981600, 46800, "NZDT"⟩, ⟨226418400, 43200, "NZST"⟩, ⟨215532000, 46800, "NZDT"⟩,
     ⟨194968800, 43200, "NZST"⟩, ⟨183477600, 46800, "NZDT"⟩, ⟨162309600, 43200, "NZST"⟩,
     ⟨152632800, 46800, "NZDT"⟩, ⟨-923304600, 43200, "NZST"⟩, ⟨-936612000, 41400, "NZMT"⟩,
     ⟨-955359000, 43200, "NZST"⟩, ⟨-968061600, 41400, "NZMT"⟩, ⟨-986808600, 43200, "NZST"⟩,
     ⟨-1000116000, 41400, "NZMT"⟩, ⟨-1018258200, 43200, "NZST"⟩, ⟨-1031565600, 41400, "NZMT"⟩,
     ⟨-1049707800, 43200, "NZST"⟩, ⟨-1063015200, 41400, "NZMT"⟩, ⟨-1081157400, 43200, "NZST"⟩,
     ⟨-1094464800, 41400, "NZMT"⟩, ⟨-1112607000, 43200, "NZST"⟩, ⟨-1125914400, 41400, "NZMT"⟩,
     ⟨-1143451800, 43200, "NZST"⟩, ⟨-1160992800, 41400, "NZMT"⟩, ⟨-1174901400, 43200, "NZST"⟩,
     ⟨-1192442400, 41400, "NZMT"⟩, ⟨-1206351000, 43200, "NZST"⟩, ⟨-1224496800, 41400, "NZMT"⟩,
     ⟨-1237800600, 43200, "NZST"⟩, ⟨-1255946400, 41400, "NZMT"⟩, ⟨-1269250200, 43200, "NZST"⟩,
     ⟨-1287396000, 41400, "NZMT"⟩, ⟨-1300699800, 43200, "NZST"⟩, ⟨-1320057000, 41400, "NZMT"⟩,
     ⟨-1330335000, 45000, "NZST"⟩, ⟨-3192435544, 41400, "NZMT"⟩]
  later := .seasonal ⟨43200, "NZST"⟩ ⟨46800, "NZDT"⟩ ⟨9, 5, 0, 7200⟩ ⟨4, 1, 0, 10800⟩

/-- `Pacific/Chatham`. -/
def chatham : Region where
  name := "Pacific/Chatham"
  first := ⟨44028, "LMT"⟩
  changes :=
    [⟨1191074400, 49500, "+1345"⟩, ⟨1174140000, 45900, "+1245"⟩, ⟨1159624800, 49500, "+1345"⟩,
     ⟨1142690400, 45900, "+1245"⟩, ⟨1128175200, 49500, "+1345"⟩, ⟨1111240800, 45900, "+1245"⟩,
     ⟨1096725600, 49500, "+1345"⟩, ⟨1079791200, 45900, "+1245"⟩, ⟨1065276000, 49500, "+1345"⟩,
     ⟨1047736800, 45900, "+1245"⟩, ⟨1033826400, 49500, "+1345"⟩, ⟨1016287200, 45900, "+1245"⟩,
     ⟨1002376800, 49500, "+1345"⟩, ⟨984837600, 45900, "+1245"⟩, ⟨970322400, 49500, "+1345"⟩,
     ⟨953388000, 45900, "+1245"⟩, ⟨938872800, 49500, "+1345"⟩, ⟨921938400, 45900, "+1245"⟩,
     ⟨907423200, 49500, "+1345"⟩, ⟨889884000, 45900, "+1245"⟩, ⟨875973600, 49500, "+1345"⟩,
     ⟨858434400, 45900, "+1245"⟩, ⟨844524000, 49500, "+1345"⟩, ⟨826984800, 45900, "+1245"⟩,
     ⟨812469600, 49500, "+1345"⟩, ⟨795535200, 45900, "+1245"⟩, ⟨781020000, 49500, "+1345"⟩,
     ⟨764085600, 45900, "+1245"⟩, ⟨749570400, 49500, "+1345"⟩, ⟨732636000, 45900, "+1245"⟩,
     ⟨718120800, 49500, "+1345"⟩, ⟨700581600, 45900, "+1245"⟩, ⟨686671200, 49500, "+1345"⟩,
     ⟨669132000, 45900, "+1245"⟩, ⟨655221600, 49500, "+1345"⟩, ⟨637682400, 45900, "+1245"⟩,
     ⟨623772000, 49500, "+1345"⟩, ⟨605023200, 45900, "+1245"⟩, ⟨594136800, 49500, "+1345"⟩,
     ⟨573573600, 45900, "+1245"⟩, ⟨562082400, 49500, "+1345"⟩, ⟨541519200, 45900, "+1245"⟩,
     ⟨530632800, 49500, "+1345"⟩, ⟨510069600, 45900, "+1245"⟩, ⟨499183200, 49500, "+1345"⟩,
     ⟨478620000, 45900, "+1245"⟩, ⟨467733600, 49500, "+1345"⟩, ⟨447170400, 45900, "+1245"⟩,
     ⟨436284000, 49500, "+1345"⟩, ⟨415720800, 45900, "+1245"⟩, ⟨404834400, 49500, "+1345"⟩,
     ⟨384271200, 45900, "+1245"⟩, ⟨372780000, 49500, "+1345"⟩, ⟨352216800, 45900, "+1245"⟩,
     ⟨341330400, 49500, "+1345"⟩, ⟨320767200, 45900, "+1245"⟩, ⟨309880800, 49500, "+1345"⟩,
     ⟨289317600, 45900, "+1245"⟩, ⟨278431200, 49500, "+1345"⟩, ⟨257868000, 45900, "+1245"⟩,
     ⟨246981600, 49500, "+1345"⟩, ⟨226418400, 45900, "+1245"⟩, ⟨215532000, 49500, "+1345"⟩,
     ⟨194968800, 45900, "+1245"⟩, ⟨183477600, 49500, "+1345"⟩, ⟨162309600, 45900, "+1245"⟩,
     ⟨152632800, 49500, "+1345"⟩, ⟨-757426500, 45900, "+1245"⟩, ⟨-3192437628, 44100, "+1215"⟩]
  later := .seasonal ⟨45900, "+1245"⟩ ⟨49500, "+1345"⟩ ⟨9, 5, 0, 9900⟩ ⟨4, 1, 0, 13500⟩

/-- `Pacific/Honolulu`. -/
def honolulu : Region where
  name := "Pacific/Honolulu"
  first := ⟨-37886, "LMT"⟩
  changes :=
    [⟨-712150200, -36000, "HST"⟩, ⟨-765376200, -37800, "HST"⟩, ⟨-769395600, -34200, "HPT"⟩,
     ⟨-880198200, -34200, "HWT"⟩, ⟨-1155436200, -37800, "HST"⟩, ⟨-1157283000, -34200, "HDT"⟩,
     ⟨-2334101314, -37800, "HST"⟩]
  later := .steady ⟨-36000, "HST"⟩

end RecurringEvents.Region
