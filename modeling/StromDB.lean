import StromDB.Properties.Alarms
import StromDB.Properties.Chunks
import StromDB.Properties.Collection
import StromDB.Properties.Evidence
import StromDB.Properties.Forests
import StromDB.Properties.Opening
import StromDB.Properties.Pages
import StromDB.Properties.Preparation
import StromDB.Properties.Slots
import StromDB.Properties.Tables
import StromDB.Properties.Reads
