import OpenPeerPower.Value
import OpenPeerPower.Schema
import OpenPeerPower.Regex
import OpenPeerPower.Intent
import OpenPeerPower.Translation
import OpenPeerPower.Slots
import OpenPeerPower.FuzzyMatch
import OpenPeerPower.Dispatch
import OpenPeerPower.Registry
import OpenPeerPower.Flatten
import OpenPeerPower.Resources
import OpenPeerPower.Loader
import OpenPeerPower.LoaderInv
import OpenPeerPower.Oppfest.Dependencies
import OpenPeerPower.Oppfest.Violations
import OpenPeerPower.AlarmControlPanel.DeviceTrigger
import OpenPeerPower.AlarmControlPanel.RoundTrip
import OpenPeerPower.MobileApp.HttpApi
